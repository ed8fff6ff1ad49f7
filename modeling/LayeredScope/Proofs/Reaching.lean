import LayeredScope.Proofs.HostFree.Templates
import LayeredScope.Proofs.Misses

/-!
# Where a render comes to

Rendering goes from block to block, into the branch of a choice that holds, and into the templates
that the blocks invoke, be it for their text or as a condition. These are the steps by which a point
inside of it is reached.

* `Dispatch.Asks`, `Dispatch.Invokes`, `Template.Opens` — the steps that lead into a template: a
  block looks a name up, the name stands for a template, the body of the template begins.
* `Dispatch.Reaches`, `Dispatch.ReachesTemplate` — rendering some blocks comes to other blocks, or
  to a template, which may lie inside templates within templates.
* `Dispatch.Origin`, `Dispatch.BodyOrigin` — a failure with the point that it comes from.
* `Dispatch.Inserts` — a name is inserted somewhere in what is reached; a name that is missing is
  one of these (`Origin.inserts`).
-/

namespace LayeredScope

variable {κ σ : Type}

/-! ## Steps into a template -/

/-- The session in which a nested template begins: its globals lie on top. -/
def Session.withGlobals (s : Session κ σ) (t : Template κ) : Session κ σ :=
  { s with stack := s.stack.push (.mapping t.globals) }

/-- The body of a template is not refused, and its blocks begin in `s'`, under its layers. -/
def Template.Opens (t : Template κ) (client : Option Value) (keywords : Option MapId)
    (s s' : Session κ σ) : Prop :=
  ¬ t.nestingLimit < s.stack.level ∧
  ∃ f, t.enterLayers client keywords ⟨s, {}⟩ = some (.ok (), f) ∧
    s' = { f.toSession with world := f.world.record (.opened f.stack.level) }

namespace Dispatch

variable (d : Dispatch κ σ)

/-- Rendering the block from `s` looks the name up in `s'`: its value is to be inserted, or it is
the condition of a branch whose turn has come. -/
inductive Asks : Session κ σ → Block κ → String → Session κ σ → Prop
  | insert (s : Session κ σ) (name : String) : Asks s (.insert (.name name)) name s
  | condition {s s' : Session κ σ} {before after : List (Expr κ × List (Block κ))}
      {body : List (Block κ)} {otherwise : Option (List (Block κ))}
      (passed : d.PassesOver (s.world.newMap ∅).1 before s.enterChoice s') (name : String) :
      Asks s (.choose (before ++ (.name name, body) :: after) otherwise) name s'

/-- The look-up of the name in `s` finds a template, which is invoked from `s'`. -/
def Invokes (s : Session κ σ) (name : String) (t : Template κ) (s' : Session κ σ) : Prop :=
  ∃ id w, d.fetch s.stack name s.world = some (.ok (.object id), w) ∧ w.template? id = some t ∧
    s' = ⟨w.record (.applied (.object id)), s.stack⟩

/-- Rendering the one list of blocks from `s` comes to where the other list is to be rendered, from
`s'`. -/
inductive Reaches : Session κ σ → List (Block κ) → Session κ σ → List (Block κ) → Prop
  | here (s : Session κ σ) (blocks : List (Block κ)) : Reaches s blocks s blocks
  /-- Past a block that has been rendered. -/
  | past {s s₁ s' : Session κ σ} {block : Block κ} {rest blocks : List (Block κ)}
      {out out' : String} (rendered : d.renderBlock out block s = some (.ok out', s₁))
      (reached : Reaches s₁ rest s' blocks) : Reaches s (block :: rest) s' blocks
  /-- Into the first branch whose condition holds. -/
  | branch {s s₁ s₂ s' : Session κ σ} {before after : List (Expr κ × List (Block κ))}
      {condition : Expr κ} {body rest blocks : List (Block κ)}
      {otherwise : Option (List (Block κ))}
      (passed : d.PassesOver (s.world.newMap ∅).1 before s.enterChoice s₁)
      (held : d.holds (s.world.newMap ∅).1 condition s₁ = some (.ok true, s₂))
      (reached : Reaches s₂ body s' blocks) :
      Reaches s (.choose (before ++ (condition, body) :: after) otherwise :: rest) s' blocks
  /-- Into what follows otherwise. -/
  | otherwise {s s₁ s' : Session κ σ} {branches : List (Expr κ × List (Block κ))}
      {body rest blocks : List (Block κ)}
      (passed : d.PassesOver (s.world.newMap ∅).1 branches s.enterChoice s₁)
      (reached : Reaches s₁ body s' blocks) :
      Reaches s (.choose branches (some body) :: rest) s' blocks
  /-- Into a template that a block invokes. -/
  | inside {s s₁ s₂ s₃ s' : Session κ σ} {block : Block κ} {rest blocks : List (Block κ)}
      {name : String} {t : Template κ} (asked : d.Asks s block name s₁)
      (invoked : d.Invokes s₁ name t s₂) (opened : t.Opens none none (s₂.withGlobals t) s₃)
      (reached : Reaches s₃ t.blocks s' blocks) : Reaches s (block :: rest) s' blocks

/-- Rendering the blocks from `s` comes to invoke the template, from `s'`. -/
def ReachesTemplate (s : Session κ σ) (blocks : List (Block κ)) (t : Template κ)
    (s' : Session κ σ) : Prop :=
  ∃ s₁ block rest name s₂, d.Reaches s blocks s₁ (block :: rest) ∧ d.Asks s₁ block name s₂ ∧
    d.Invokes s₂ name t s'

/-- Where a failure of rendering the blocks from `s` comes from. -/
inductive Origin (s : Session κ σ) (blocks : List (Block κ)) : Failure → Prop
  /-- A name is inserted where no layer defines it. -/
  | missing {name : String} {s' : Session κ σ} {rest : List (Block κ)}
      (reached : d.Reaches s blocks s' (.insert (.name name) :: rest))
      (absent : ∀ layer ∈ s'.stack.layers, ∃ w, d.askLayer layer name s'.world =
        some (.ok none, w)) : Origin s blocks (.missingKey name)
  /-- A template is nested too deep. -/
  | refused {t : Template κ} {s' : Session κ σ} (reached : d.ReachesTemplate s blocks t s')
      (deep : t.nestingLimit < s'.stack.level) : Origin s blocks (.recursionLimit t.nestingLimit)

/-- Where a failure of the body of a template comes from. -/
inductive BodyOrigin (t : Template κ) (client : Option Value) (keywords : Option MapId)
    (s : Session κ σ) : Failure → Prop
  | refused (deep : t.nestingLimit < s.stack.level) :
      BodyOrigin t client keywords s (.recursionLimit t.nestingLimit)
  | inside {s' : Session κ σ} {e : Failure} (opened : t.Opens client keywords s s')
      (origin : d.Origin s' t.blocks e) : BodyOrigin t client keywords s e

variable {d}

namespace Reaches

variable {s s' s'' : Session κ σ} {blocks blocks' blocks'' : List (Block κ)}

theorem trans (h : d.Reaches s blocks s' blocks') (h' : d.Reaches s' blocks' s'' blocks'') :
    d.Reaches s blocks s'' blocks'' := by
  induction h with
  | here => exact h'
  | past rendered _ ih => exact .past rendered (ih h')
  | branch passed held _ ih => exact .branch passed held (ih h')
  | otherwise passed _ ih => exact .otherwise passed (ih h')
  | inside asked invoked opened _ ih => exact .inside asked invoked opened (ih h')

theorem reachesTemplate (h : d.Reaches s blocks s' blocks') {t : Template κ}
    (ht : d.ReachesTemplate s' blocks' t s'') : d.ReachesTemplate s blocks t s'' := by
  obtain ⟨s₁, block, rest, name, s₂, hreached, hasked, hinvoked⟩ := ht
  exact ⟨s₁, block, rest, name, s₂, h.trans hreached, hasked, hinvoked⟩

theorem origin (h : d.Reaches s blocks s' blocks') {e : Failure} (he : d.Origin s' blocks' e) :
    d.Origin s blocks e := by
  cases he with
  | missing reached absent => exact .missing (h.trans reached) absent
  | refused reached deep => exact .refused (h.reachesTemplate reached) deep

end Reaches

/-- A template that the first block invokes fails as its body does. -/
theorem BodyOrigin.origin {s s₁ s₂ : Session κ σ} {block : Block κ} {name : String}
    {t : Template κ} {e : Failure} (h : d.BodyOrigin t none none (s₂.withGlobals t) e)
    (hasked : d.Asks s block name s₁) (hinvoked : d.Invokes s₁ name t s₂)
    (rest : List (Block κ)) : d.Origin s (block :: rest) e := by
  cases h with
  | refused deep => exact .refused ⟨s, block, rest, name, s₁, .here _ _, hasked, hinvoked⟩ deep
  | inside opened origin =>
    have hreached : d.Reaches s (block :: rest) _ t.blocks :=
      .inside hasked hinvoked opened (.here _ _)
    exact hreached.origin origin

end Dispatch

/-! ## Names that are inserted -/

namespace Block

mutual

/-- Is the name inserted by the block, at any depth? -/
def inserts (name : String) : Block κ → Bool
  | .insert (.name n) => n == name
  | .choose branches otherwise => branchesInsert name branches || otherwiseInserts name otherwise
  | .text _ | .insert (.code _) | .code _ => false

def someInserts (name : String) : List (Block κ) → Bool
  | [] => false
  | block :: rest => block.inserts name || someInserts name rest

def branchesInsert (name : String) : List (Expr κ × List (Block κ)) → Bool
  | [] => false
  | (_, body) :: rest => someInserts name body || branchesInsert name rest

def otherwiseInserts (name : String) : Option (List (Block κ)) → Bool
  | none => false
  | some body => someInserts name body

end

theorem branchesInsert_append {name : String} {before after : List (Expr κ × List (Block κ))}
    {condition : Expr κ} {body : List (Block κ)} (h : someInserts name body = true) :
    branchesInsert name (before ++ (condition, body) :: after) = true := by
  induction before with
  | nil => simp only [List.nil_append, branchesInsert, h, Bool.true_or]
  | cons branch before ih => simp only [List.cons_append, branchesInsert, ih, Bool.or_true]

end Block

namespace Dispatch

variable (d : Dispatch κ σ)

/-- The name is inserted by the blocks, or by those of a template that rendering them comes to
invoke. -/
def Inserts (s : Session κ σ) (blocks : List (Block κ)) (name : String) : Prop :=
  Block.someInserts name blocks = true ∨
  ∃ t s', d.ReachesTemplate s blocks t s' ∧ Block.someInserts name t.blocks = true

variable {d}

/-- What is reached is part of the blocks, or of a template that is reached. -/
theorem Reaches.inserts {s s' : Session κ σ} {blocks blocks' : List (Block κ)}
    (h : d.Reaches s blocks s' blocks') {name : String}
    (hname : Block.someInserts name blocks' = true) : d.Inserts s blocks name := by
  induction h with
  | here => exact .inl hname
  | past rendered _ ih =>
    rcases ih hname with hblocks | ⟨t, s₂, ht, hinserts⟩
    · exact .inl (by simp only [Block.someInserts, hblocks, Bool.or_true])
    · exact .inr ⟨t, s₂, (Reaches.past rendered (.here _ _)).reachesTemplate ht, hinserts⟩
  | branch passed held _ ih =>
    rcases ih hname with hblocks | ⟨t, s₂, ht, hinserts⟩
    · exact .inl (by simp only [Block.someInserts, Block.inserts,
        Block.branchesInsert_append hblocks, Bool.true_or])
    · exact .inr ⟨t, s₂, (Reaches.branch passed held (.here _ _)).reachesTemplate ht, hinserts⟩
  | otherwise passed _ ih =>
    rcases ih hname with hblocks | ⟨t, s₂, ht, hinserts⟩
    · exact .inl (by simp only [Block.someInserts, Block.inserts, Block.otherwiseInserts, hblocks,
        Bool.or_true, Bool.true_or])
    · exact .inr ⟨t, s₂, (Reaches.otherwise passed (.here _ _)).reachesTemplate ht, hinserts⟩
  | inside asked invoked opened _ ih =>
    rcases ih hname with hblocks | ⟨t, s₂, ht, hinserts⟩
    · exact .inr ⟨_, _, ⟨_, _, _, _, _, .here _ _, asked, invoked⟩, hblocks⟩
    · exact .inr ⟨t, s₂,
        (Reaches.inside asked invoked opened (.here _ _)).reachesTemplate ht, hinserts⟩

/-- A missing name is one that is inserted. -/
theorem Origin.inserts {s : Session κ σ} {blocks : List (Block κ)} {name : String}
    (h : d.Origin s blocks (.missingKey name)) : d.Inserts s blocks name := by
  cases h with
  | missing reached _ =>
    exact reached.inserts (by simp only [Block.someInserts, Block.inserts, beq_self_eq_true,
      Bool.true_or])

/-- A template that is refused is not missing a name, so its body has opened. -/
theorem BodyOrigin.inserts {t : Template κ} {client : Option Value} {keywords : Option MapId}
    {s : Session κ σ} {name : String}
    (h : d.BodyOrigin t client keywords s (.missingKey name)) :
    ∃ s', t.Opens client keywords s s' ∧ d.Inserts s' t.blocks name := by
  cases h with
  | inside opened origin => exact ⟨_, opened, origin.inserts⟩

end Dispatch

end LayeredScope
