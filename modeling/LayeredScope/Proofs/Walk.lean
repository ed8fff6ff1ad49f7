import LayeredScope.Document.Template

/-!
# Relations that rendering goes along with

Two records of calls that are related in some way render in a way that is related too, if the
relation goes along with how runs are put together. What it has to go along with is listed once, and
the way from a look-up to a template is walked once.

* `inChoice`, `Template.enterLayers` — the scope of a choice and that of a body, without what is
  rendered in them.
* `StackRelation` — a relation between runs on a stack, with one clause for each way of putting them
  together that rendering knows.
* `Dispatch.Related` — the calls of two records are related.
* `Dispatch.Related.renderNested` — **then so are look-ups, conditions, blocks and templates.**
-/

namespace LayeredScope

variable {κ σ α β : Type}

/-! ## Scopes -/

/-- The session in which the branches of a choice are looked at. -/
def Session.enterChoice (s : Session κ σ) : Session κ σ :=
  ⟨(s.world.newMap ∅).2, s.stack.push (.mapping (s.world.newMap ∅).1)⟩

/-- Run under a fresh mapping, which is entered for as long as the run lasts. -/
def inChoice (x : MapId → Run (Session κ σ) α) : Run (Session κ σ) α := do
  let kept ← (Run.modifyGet fun w => w.newMap ∅).onWorld
  guarded do
    enter (.mapping kept)
    (x kept).onSession

theorem inChoice_apply (x : MapId → Run (Session κ σ) α) (s : Session κ σ) :
    inChoice x s =
      match x (s.world.newMap ∅).1 s.enterChoice with
      | none => none
      | some (r, s') => some (r, ⟨s'.world, Guard.close ⟨1, none⟩ s'.stack⟩) := by
  have hopened : inChoice x s =
      withLayers [.mapping (s.world.newMap ∅).1] (x (s.world.newMap ∅).1)
        ⟨(s.world.newMap ∅).2, s.stack⟩ := rfl
  rw [hopened, withLayers_apply]
  rfl

/-- A choice ends as its branches do, and its own mapping is taken off again. -/
theorem Dispatch.renderBlock_choose_apply {d : Dispatch κ σ} (out : String)
    (branches : List (Expr κ × List (Block κ))) (otherwise : Option (List (Block κ)))
    (s : Session κ σ) :
    d.renderBlock out (.choose branches otherwise) s =
      match d.renderBranches out (s.world.newMap ∅).1 (d.renderOtherwise out otherwise) branches
        s.enterChoice with
      | none => none
      | some (r, s') => some (r, ⟨s'.world, Guard.close ⟨1, none⟩ s'.stack⟩) := by
  have hchoice : d.renderBlock out (.choose branches otherwise) s =
      inChoice
        (fun kept => d.renderBranches out kept (d.renderOtherwise out otherwise) branches) s :=
    rfl
  rw [hchoice, inChoice_apply]
  cases d.renderBranches out (s.world.newMap ∅).1 (d.renderOtherwise out otherwise) branches
    s.enterChoice <;> rfl

theorem Dispatch.renderBlock_choose {d : Dispatch κ σ} {out : String}
    {branches : List (Expr κ × List (Block κ))} {otherwise : Option (List (Block κ))}
    {s s' : Session κ σ} {r : Except Failure String}
    (h : d.renderBranches out (s.world.newMap ∅).1 (d.renderOtherwise out otherwise) branches
      s.enterChoice = some (r, s')) :
    d.renderBlock out (.choose branches otherwise) s =
      some (r, ⟨s'.world, Guard.close ⟨1, none⟩ s'.stack⟩) := by
  rw [renderBlock_choose_apply, h]

/-- A body goes one level deeper and enters what it brings. -/
def Template.enterLayers (t : Template κ) (client : Option Value) (keywords : Option MapId) :
    Run (Frame κ σ) Unit := do
  deepen
  enterViews (clientTargets client)
  let empty ← Run.gets fun f => (f.world.entries t.vars).isEmpty
  enterAll ((if empty then [] else [.mapping t.vars]) ++ (keywords.map Layer.mapping).toList)

/-- A body that is not refused is rendered under its layers. -/
theorem Dispatch.renderContent_apply (d : Dispatch κ σ) {t : Template κ} {s : Session κ σ}
    (h : ¬ t.nestingLimit < s.stack.level) (client : Option Value) (keywords : Option MapId) :
    d.renderContent t client keywords s =
      guarded (t.enterLayers client keywords >>= fun _ => (inBody (d.renderAll t.blocks)).onSession)
        s := by
  unfold Dispatch.renderContent Template.enterLayers
  rw [Run.bind_ok (Run.get_apply s), if_neg h]
  simp only [bind_assoc]

/-! ## Relations -/

/-- A relation between runs on a stack that goes along with whatever rendering is put together
from. -/
structure StackRelation (κ σ : Type) where
  Rel : ∀ {α : Type}, Run (Session κ σ) α → Run (Session κ σ) α → Prop
  /-- What is known of the mapping of a choice while its conditions are looked at. -/
  Kept : MapId → Prop
  pure : ∀ {α : Type} (v : α), Rel (Pure.pure v) (Pure.pure v)
  fail : ∀ {α : Type} (e : Failure), Rel (Run.fail e : Run _ α) (Run.fail e)
  gets : ∀ {α : Type} (f : Session κ σ → α), Rel (Run.gets f) (Run.gets f)
  bind : ∀ {α β : Type} {x y : Run (Session κ σ) α} {f g : α → Run (Session κ σ) β}, Rel x y →
    (∀ v, Rel (f v) (g v)) → Rel (x >>= f) (y >>= g)
  /-- Before a value is invoked this is noted. -/
  applied : ∀ v, Rel (note (.applied v)).onWorld (note (.applied v)).onWorld
  called : ∀ v, Rel (note (.called v)).onWorld (note (.called v)).onWorld
  /-- A condition hides a miss of its name, and keeps what is found. -/
  tested : ∀ {d e : Dispatch κ σ} {kept : MapId} {name : String}, Kept kept →
    Rel (d.lookup name true) (e.lookup name true) →
    Rel (d.holds kept (.name name)) (e.holds kept (.name name))
  choice : ∀ {α : Type} {x y : MapId → Run (Session κ σ) α},
    (∀ kept, Kept kept → Rel (x kept) (y kept)) → Rel (inChoice x) (inChoice y)
  body : ∀ (t : Template κ) client keywords {x y : Run (Session κ σ) String}, Rel x y →
    Rel (guarded (t.enterLayers client keywords >>= fun _ => (inBody x).onSession))
      (guarded (t.enterLayers client keywords >>= fun _ => (inBody y).onSession))
  layers : ∀ layers {x y : Run (Session κ σ) String}, Rel x y →
    Rel (withLayers layers x) (withLayers layers y)

/-- The calls of two records that rendering asks for are related. -/
structure Dispatch.Related (R : StackRelation κ σ) (d e : Dispatch κ σ) : Prop where
  fetch : ∀ s key, R.Rel (d.fetch s key).onWorld (e.fetch s key).onWorld
  call : ∀ v, R.Rel (d.call v).onWorld (e.call v).onWorld
  apply : ∀ v client, R.Rel (d.apply v client) (e.apply v client)
  hook : ∀ id, R.Rel (d.hook id) (e.hook id)
  evaluate : ∀ code, R.Rel (d.evaluate code) (e.evaluate code)

namespace Dispatch.Related

variable {R : StackRelation κ σ} {d e : Dispatch κ σ}

/-! ## Look-ups -/

theorem invoke (h : d.Related R e) (v : Value) : R.Rel (d.invoke v) (e.invoke v) := by
  refine R.bind (R.gets _) fun treatment => ?_
  cases treatment with
  | inert => exact R.pure v
  | template => exact R.bind (R.applied v) fun _ => h.apply v none
  | plain => exact R.bind (R.called v) fun _ => h.call v

theorem onAccess (h : d.Related R e) (v : Value) : R.Rel (d.onAccess v) (e.onAccess v) := by
  unfold Dispatch.onAccess
  split
  · refine R.bind (h.hook _) fun answer => ?_
    cases answer with
    | none => exact h.invoke _
    | some value => exact R.pure value
  · exact h.invoke _

theorem lookup (h : d.Related R e) (key : String) (invoked : Bool) :
    R.Rel (d.lookup key invoked) (e.lookup key invoked) := by
  refine R.bind (R.gets id) fun s => R.bind (h.fetch s.stack key) fun value => ?_
  cases invoked with
  | false => exact R.pure value
  | true => exact h.onAccess value

/-! ## Blocks -/

theorem valueOf (h : d.Related R e) (x : Expr κ) : R.Rel (d.valueOf x) (e.valueOf x) := by
  cases x with
  | name name => exact h.lookup name true
  | code code => exact h.evaluate code

theorem holds (h : d.Related R e) {kept : MapId} (hkept : R.Kept kept) (condition : Expr κ) :
    R.Rel (d.holds kept condition) (e.holds kept condition) := by
  cases condition with
  | name name => exact R.tested hkept (h.lookup name true)
  | code code => exact R.bind (h.evaluate code) fun _ => R.gets _

mutual

theorem renderOnto (h : d.Related R e) (out : String) :
    (blocks : List (Block κ)) → R.Rel (d.renderOnto out blocks) (e.renderOnto out blocks)
  | [] => R.pure out
  | block :: rest => R.bind (renderBlock h out block) fun out => renderOnto h out rest

/-- What is known of the mapping of a choice is known of a fresh one. -/
theorem renderBlock (h : d.Related R e) (out : String) :
    (block : Block κ) → R.Rel (d.renderBlock out block) (e.renderBlock out block)
  | .text _ => R.pure _
  | .insert x => R.bind (h.valueOf x) fun _ => R.gets _
  | .choose branches otherwise =>
    R.choice fun _ hkept =>
      renderBranches h out hkept (renderOtherwise h out otherwise) branches
  | .code code => R.bind (h.evaluate code) fun _ => R.gets _

theorem renderBranches (h : d.Related R e) (out : String) {kept : MapId} (hkept : R.Kept kept)
    {x y : Run (Session κ σ) String} (hxy : R.Rel x y) :
    (branches : List (Expr κ × List (Block κ))) →
      R.Rel (d.renderBranches out kept x branches) (e.renderBranches out kept y branches)
  | [] => hxy
  | (condition, body) :: rest =>
    R.bind (h.holds hkept condition) fun held => by
      cases held with
      | true => exact renderOnto h out body
      | false => exact renderBranches h out hkept hxy rest

theorem renderOtherwise (h : d.Related R e) (out : String) :
    (otherwise : Option (List (Block κ))) →
      R.Rel (d.renderOtherwise out otherwise) (e.renderOtherwise out otherwise)
  | none => R.pure out
  | some body => renderOnto h out body

end

theorem renderAll (h : d.Related R e) (blocks : List (Block κ)) :
    R.Rel (d.renderAll blocks) (e.renderAll blocks) := h.renderOnto "" blocks

/-! ## Templates -/

theorem renderContent (h : d.Related R e) (t : Template κ) (client : Option Value)
    (keywords : Option MapId) :
    R.Rel (d.renderContent t client keywords) (e.renderContent t client keywords) := by
  refine R.bind (R.gets id) fun s => ?_
  split
  · exact R.fail _
  · have hbody := R.body t client keywords (h.renderAll t.blocks)
    unfold Template.enterLayers at hbody
    simpa only [bind_assoc] using hbody

/-- **What rendering makes of related calls is related.** -/
theorem renderNested (h : d.Related R e) (t : Template κ) (client : Option Value)
    (keywords : Option MapId) :
    R.Rel (d.renderNested t client keywords) (e.renderNested t client keywords) :=
  R.layers _ (h.renderContent t client keywords)

end Dispatch.Related

end LayeredScope
