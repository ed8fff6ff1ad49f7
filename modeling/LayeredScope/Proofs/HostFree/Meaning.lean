import LayeredScope.Proofs.HostFree.Scope

/-!
# What host-free documents mean

A second reading of documents, without stacks, guards or identities: a scope gives the visible
bindings, a choice binds the names of its conditions as it goes, and a template is rendered in the
scope in which it is invoked. `world` gives the texts of values and the templates behind them.

* `Meaning.renderOnto` — blocks, after a text, where `nested` says what templates are rendered as.
* `Meaning.content` — the body of a template at a level, with `room` for so many bodies in each
  other.

Nothing is said about code: blocks with code mean nothing here.
-/

namespace LayeredScope

variable {κ σ : Type}

/-- The scope of the body of a template that is invoked in the scope `ρ`. -/
def Scope.within (world : World κ σ) (t : Template κ) (ρ : Scope) : Scope :=
  world.layered ρ [t.globals, t.vars]

namespace Meaning

variable (world : World κ σ) (nested : Scope → Template κ → Except Failure String)

/-- What a look-up makes of a value: a template is rendered, any other value is left alone. -/
def onAccess (ρ : Scope) (v : Value) : Except Failure Value :=
  match v with
  | .object id =>
    match world.template? id with
    | some t => (nested ρ t).map .str
    | none => .ok v
  | v => .ok v

/-- What a name stands for, once it is invoked. -/
def lookup (ρ : Scope) (name : String) : Except Failure Value := do
  let v ← found name (ρ name)
  onAccess world nested ρ v

/-- What a look-up finds is free of the host, as is all that is visible. -/
theorem isHostFree_of_lookup {ρ : Scope} (hρ : ∀ key v, ρ key = some v → world.isHostFree v = true)
    {name : String} {v : Value} (h : lookup world nested ρ name = .ok v) :
    world.isHostFree v = true := by
  unfold lookup at h
  cases hv : ρ name with
  | none => rw [hv] at h; cases h
  | some value =>
    rw [hv] at h
    change onAccess world nested ρ value = .ok v at h
    unfold onAccess at h
    split at h
    · split at h
      · rename_i t _
        cases ht : nested ρ t with
        | error e => rw [ht] at h; cases h
        | ok text => rw [ht] at h; cases h; rfl
      · cases h
        exact hρ name _ hv
    · cases h
      exact hρ name _ hv

mutual

/-- Blocks, after a text. -/
def renderOnto (ρ : Scope) (out : String) : List (Block κ) → Except Failure String
  | [] => .ok out
  | block :: rest => do
    let out ← renderBlock ρ out block
    renderOnto ρ out rest

/-- One block, after a text. -/
def renderBlock (ρ : Scope) (out : String) : Block κ → Except Failure String
  | .text text => .ok (out ++ text)
  | .insert (.name name) => do
    let v ← lookup world nested ρ name
    .ok (out ++ world.display v)
  | .choose branches otherwise =>
    renderBranches ρ out (fun ρ => renderOtherwise ρ out otherwise) branches
  | .insert (.code _) | .code _ => .ok out

/-- The first branch whose condition holds, or else what follows otherwise, in a scope with the
conditions that were found so far. -/
def renderBranches (ρ : Scope) (out : String) (otherwise : Scope → Except Failure String) :
    List (Expr κ × List (Block κ)) → Except Failure String
  | [] => otherwise ρ
  | (.name name, body) :: rest =>
    match lookup world nested ρ name with
    | .ok v =>
      if world.isTruthy v then renderOnto (ρ.bind name v) out body
      else renderBranches (ρ.bind name v) out otherwise rest
    | .error e => if e.isMissOf name then renderBranches ρ out otherwise rest else .error e
  | (.code _, _) :: rest => renderBranches ρ out otherwise rest

/-- The blocks of an `otherwise`, if there are any. -/
def renderOtherwise (ρ : Scope) (out : String) :
    Option (List (Block κ)) → Except Failure String
  | none => .ok out
  | some body => renderOnto ρ out body

end

/-- The body of a template in a scope of its own, where `room` more bodies may be open. -/
def content (world : World κ σ) : Nat → Int64 → Scope → Template κ → Except Failure String
  | 0, _, _, t => .error (.recursionLimit t.nestingLimit)
  | room + 1, level, ρ, t =>
    if t.nestingLimit < level then .error (.recursionLimit t.nestingLimit)
    else
      renderOnto world
        (fun ρ t => content world room (Stack.deeper level) (ρ.within world t) t) ρ "" t.blocks

end Meaning

end LayeredScope
