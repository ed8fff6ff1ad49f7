import LayeredScope.Proofs.Misses

/-!
# Rendering piece by piece

Everything that is rendered goes onto one text, which is handed on from block to block and into the
branches of choices. Evaluations run in between, may change whatever they like, and may put an end
to it all. The text itself takes no part in any of this: it is only ever added to.

* `Dispatch.renderOnto_eq` — blocks after a text are the text and then the blocks on their own. The
  induction is over blocks within choices within blocks, for every text.
* `Dispatch.renderAll_append` — blocks in two parts are rendered one part after the other.
* `Dispatch.Descends` — rendering comes to the body of a branch, in choices within choices, with the
  text that stands there by then.
* `Dispatch.rendering_composes` — **rendering is compositional**, at any depth of choices.
-/

namespace LayeredScope

variable {κ σ α β s : Type}

/-! ## Answers that are changed afterwards -/

theorem Run.map_apply (f : α → β) (x : Run s α) (a : s) :
    (f <$> x) a = (x a).map fun p => (p.1.map f, p.2) := by
  show (x >>= fun v => pure (f v)) a = _
  rw [Run.bind_apply]
  cases x a with
  | none => rfl
  | some p =>
    obtain ⟨r, b⟩ := p
    cases r <;> rfl

theorem Run.onSession_map (f : α → β) (x : Run (Session κ σ) α) :
    (f <$> x).onSession = f <$> x.onSession := by
  funext a
  rw [Run.map_apply, Run.onSession_apply, Run.onSession_apply, Run.map_apply]
  cases x a.toSession <;> rfl

theorem guarded_map (f : α → β) (x : Run (Frame κ σ) α) :
    guarded (f <$> x) = f <$> guarded x := by
  funext a
  rw [Run.map_apply, guarded_apply, guarded_apply, Run.map_apply]
  cases x ⟨a, {}⟩ <;> rfl

/-- Appending twice appends both. -/
theorem Run.append_map (out text : String) (x : Run s String) :
    (out ++ ·) <$> ((text ++ ·) <$> x) = ((out ++ text) ++ ·) <$> x := by
  rw [← comp_map]
  congr 1
  funext more
  exact (String.append_assoc ..).symm

/-- What a run ends with when a text is put before its answer. -/
theorem Run.of_append_map {out text : String} {x : Run s String} {a b : s}
    (h : ((out ++ ·) <$> x) a = some (.ok text, b)) :
    ∃ added, x a = some (.ok added, b) ∧ text = out ++ added := by
  rw [Run.map_apply] at h
  obtain ⟨⟨r, c⟩, hx, heq⟩ := Option.map_eq_some_iff.mp h
  cases r with
  | error e => cases heq
  | ok added =>
    cases heq
    exact ⟨added, hx, rfl⟩

namespace Dispatch

/-! ## The text that stands already -/

section

variable (d : Dispatch κ σ)

mutual

/-- What blocks append is the same whatever they are appended to. -/
theorem renderOnto_eq (out : String) :
    (blocks : List (Block κ)) → d.renderOnto out blocks = (out ++ ·) <$> d.renderAll blocks
  | [] => by
    show pure out = (out ++ ·) <$> (pure "" : Run (Session κ σ) String)
    rw [map_pure, String.append_empty]
  | block :: rest => by
    have hrest (text : String) := renderOnto_eq text rest
    show (d.renderBlock out block >>= fun text => d.renderOnto text rest) =
      (out ++ ·) <$> (d.renderBlock "" block >>= fun text => d.renderOnto text rest)
    rw [renderBlock_eq out block]
    simp only [hrest, map_bind, bind_map_left, Run.append_map]

theorem renderBlock_eq (out : String) :
    (block : Block κ) → d.renderBlock out block = (out ++ ·) <$> d.renderBlock "" block
  | .text text => by
    simp only [renderBlock, map_pure, String.empty_append]
  | .insert value => by
    simp only [renderBlock, map_bind, String.empty_append]
    rfl
  | .choose branches otherwise => by
    have hbranches (kept : MapId) := renderBranches_eq out kept (renderOtherwise_eq out otherwise)
      branches
    simp only [renderBlock, hbranches, Run.onSession_map, ← map_bind, guarded_map]
  | .code code => by
    simp only [renderBlock, map_bind, String.empty_append]
    congr 1
    funext value s
    cases value.isNone <;> simp [Run.map_apply, Except.map]

theorem renderBranches_eq (out : String) (kept : MapId) {x y : Run (Session κ σ) String}
    (hxy : x = (out ++ ·) <$> y) :
    (branches : List (Expr κ × List (Block κ))) →
      d.renderBranches out kept x branches = (out ++ ·) <$> d.renderBranches "" kept y branches
  | [] => hxy
  | (condition, body) :: rest => by
    have hbody := renderOnto_eq out body
    have hrest := renderBranches_eq out kept hxy rest
    simp only [renderBranches, map_bind]
    congr 1
    funext held
    cases held with
    | true => exact hbody
    | false => exact hrest

theorem renderOtherwise_eq (out : String) :
    (otherwise : Option (List (Block κ))) →
      d.renderOtherwise out otherwise = (out ++ ·) <$> d.renderOtherwise "" otherwise
  | none => by
    simp only [renderOtherwise, map_pure, String.append_empty]
  | some body => renderOnto_eq out body

end

/-- Blocks in two parts are rendered one part after the other, and their texts stand one after the
other. -/
theorem renderAll_append (xs ys : List (Block κ)) :
    d.renderAll (xs ++ ys) =
      (do
        let a ← d.renderAll xs
        let b ← d.renderAll ys
        pure (a ++ b)) := by
  unfold renderAll
  rw [renderOnto_append]
  congr 1
  funext a
  rw [d.renderOnto_eq a ys]
  rfl

/-! ## The branches of choices -/

/-- Rendering blocks onto the text `out` from `s` comes to render other blocks onto the text
`buffer` from `s'`: later ones, or those of a branch that is taken, in choices within choices. -/
inductive Descends :
    String → List (Block κ) → Session κ σ → String → List (Block κ) → Session κ σ → Prop
  | here (out : String) (blocks : List (Block κ)) (s : Session κ σ) :
      Descends out blocks s out blocks s
  /-- Past a block that has been rendered. -/
  | past {out text buffer : String} {block : Block κ} {rest body : List (Block κ)}
      {s s₁ s' : Session κ σ} (rendered : d.renderBlock out block s = some (.ok text, s₁))
      (deeper : Descends text rest s₁ buffer body s') :
      Descends out (block :: rest) s buffer body s'
  /-- Into the first branch whose condition holds. -/
  | branch {out buffer : String} {before after : List (Expr κ × List (Block κ))}
      {condition : Expr κ} {taken rest body : List (Block κ)}
      {otherwise : Option (List (Block κ))} {s s₁ s₂ s' : Session κ σ}
      (passed : d.PassesOver (s.world.newMap ∅).1 before s.enterChoice s₁)
      (held : d.holds (s.world.newMap ∅).1 condition s₁ = some (.ok true, s₂))
      (deeper : Descends out taken s₂ buffer body s') :
      Descends out (.choose (before ++ (condition, taken) :: after) otherwise :: rest) s buffer body
        s'
  /-- Into what follows otherwise. -/
  | otherwise {out buffer : String} {branches : List (Expr κ × List (Block κ))}
      {taken rest body : List (Block κ)} {s s₁ s' : Session κ σ}
      (passed : d.PassesOver (s.world.newMap ∅).1 branches s.enterChoice s₁)
      (deeper : Descends out taken s₁ buffer body s') :
      Descends out (.choose branches (some taken) :: rest) s buffer body s'

end

section

variable {d : Dispatch κ σ}

/-- A block that is rendered adds a text, and would add it to any other. -/
theorem renderBlock_ok {out text : String} {block : Block κ} {s s' : Session κ σ}
    (h : d.renderBlock out block s = some (.ok text, s')) :
    ∃ added, text = out ++ added ∧
      ∀ other, d.renderBlock other block s = some (.ok (other ++ added), s') := by
  rw [d.renderBlock_eq] at h
  obtain ⟨added, hblock, htext⟩ := Run.of_append_map h
  refine ⟨added, htext, fun other => ?_⟩
  rw [d.renderBlock_eq, Run.map_apply, hblock]
  rfl

/-- A choice renders the branch that is taken onto the text that it is given. -/
theorem renderBranches_taken {kept : MapId} {before after : List (Expr κ × List (Block κ))}
    {condition : Expr κ} {taken : List (Block κ)} {s s₁ s₂ : Session κ σ}
    (passed : d.PassesOver kept before s s₁)
    (held : d.holds kept condition s₁ = some (.ok true, s₂)) (out : String)
    (otherwise : Run (Session κ σ) String) :
    d.renderBranches out kept otherwise (before ++ (condition, taken) :: after) s =
      d.renderOnto out taken s₂ := by
  rw [passed.renderBranches_eq]
  exact Run.bind_ok held

theorem renderBranches_otherwise {kept : MapId} {branches : List (Expr κ × List (Block κ))}
    {s s₁ : Session κ σ} (passed : d.PassesOver kept branches s s₁) (out : String)
    (otherwise : Run (Session κ σ) String) :
    d.renderBranches out kept otherwise branches s = otherwise s₁ := by
  rw [← List.append_nil branches, passed.renderBranches_eq]
  rfl

/-- A choice, and what comes after it, by what the branch comes to. -/
theorem renderOnto_choose {out : String} {branches : List (Expr κ × List (Block κ))}
    {otherwise : Option (List (Block κ))} {taken : List (Block κ)} {s s₁ : Session κ σ}
    (h : d.renderBranches out (s.world.newMap ∅).1 (d.renderOtherwise out otherwise) branches
      s.enterChoice = d.renderOnto out taken s₁) (rest : List (Block κ)) :
    d.renderOnto out (.choose branches otherwise :: rest) s =
      match d.renderOnto out taken s₁ with
      | none => none
      | some (.error e, s₂) => some (.error e, ⟨s₂.world, Guard.close ⟨1, none⟩ s₂.stack⟩)
      | some (.ok text, s₂) =>
        d.renderOnto text rest ⟨s₂.world, Guard.close ⟨1, none⟩ s₂.stack⟩ := by
  show (d.renderBlock out (.choose branches otherwise) >>= fun text => d.renderOnto text rest) s = _
  rw [Run.bind_apply, renderBlock_choose_apply, h]
  rcases d.renderOnto out taken s₁ with _ | ⟨_ | _, _⟩ <;> rfl

/-- When a choice is rendered, and what comes after it, the branch has been. -/
theorem taken_of_choose {out full : String} {branches : List (Expr κ × List (Block κ))}
    {otherwise : Option (List (Block κ))} {taken rest : List (Block κ)} {s s₁ s₂ : Session κ σ}
    (h : d.renderBranches out (s.world.newMap ∅).1 (d.renderOtherwise out otherwise) branches
      s.enterChoice = d.renderOnto out taken s₁)
    (hfull : d.renderOnto out (.choose branches otherwise :: rest) s = some (.ok full, s₂)) :
    ∃ text s₃ more, d.renderOnto out taken s₁ = some (.ok text, s₃) ∧ full = text ++ more := by
  rw [renderOnto_choose h] at hfull
  rcases htaken : d.renderOnto out taken s₁ with _ | ⟨_ | text, s₃⟩
  · rw [htaken] at hfull
    cases hfull
  · rw [htaken] at hfull
    cases hfull
  · rw [htaken] at hfull
    dsimp only at hfull
    rw [d.renderOnto_eq] at hfull
    obtain ⟨more, -, hmore⟩ := Run.of_append_map hfull
    exact ⟨text, s₃, more, rfl, hmore⟩

namespace Descends

variable {out buffer : String} {blocks body : List (Block κ)} {s s' : Session κ σ}

/-- The text that stands in the end begins with the one from the beginning, and what lies between
does not depend on it; nor does the way. -/
theorem exists_before (h : d.Descends out blocks s buffer body s') :
    ∃ before, buffer = out ++ before ∧
      ∀ other, d.Descends other blocks s (other ++ before) body s' := by
  induction h with
  | here out blocks s =>
    refine ⟨"", (String.append_empty).symm, fun other => ?_⟩
    rw [String.append_empty]
    exact .here other blocks s
  | past rendered _ ih =>
    obtain ⟨added, htext, hother⟩ := renderBlock_ok rendered
    obtain ⟨before, hbuffer, hway⟩ := ih
    refine ⟨added ++ before, ?_, fun other => ?_⟩
    · rw [hbuffer, htext, String.append_assoc]
    · rw [← String.append_assoc]
      exact .past (hother other) (hway (other ++ added))
  | branch passed held _ ih =>
    obtain ⟨before, hbuffer, hway⟩ := ih
    exact ⟨before, hbuffer, fun other => .branch passed held (hway other)⟩
  | otherwise passed _ ih =>
    obtain ⟨before, hbuffer, hway⟩ := ih
    exact ⟨before, hbuffer, fun other => .otherwise passed (hway other)⟩

/-- What is not finished down there is not finished at all. -/
theorem unfinished (h : d.Descends out blocks s buffer body s')
    (hbody : d.renderOnto buffer body s' = none) : d.renderOnto out blocks s = none := by
  induction h with
  | here => exact hbody
  | past rendered _ ih => exact (Run.bind_ok rendered).trans (ih hbody)
  | branch passed held _ ih =>
    rw [renderOnto_choose (renderBranches_taken passed held _ _), ih hbody]
  | otherwise passed _ ih =>
    rw [renderOnto_choose (renderBranches_otherwise passed _ _), ih hbody]

/-- A failure down there is the failure of the whole. -/
theorem fails (h : d.Descends out blocks s buffer body s') {e : Failure} {s₂ : Session κ σ}
    (hbody : d.renderOnto buffer body s' = some (.error e, s₂)) :
    ∃ s₃, d.renderOnto out blocks s = some (.error e, s₃) := by
  induction h with
  | here => exact ⟨s₂, hbody⟩
  | past rendered _ ih =>
    obtain ⟨s₃, hrest⟩ := ih hbody
    exact ⟨s₃, (Run.bind_ok rendered).trans hrest⟩
  | branch passed held _ ih =>
    obtain ⟨s₃, htaken⟩ := ih hbody
    rw [renderOnto_choose (renderBranches_taken passed held _ _), htaken]
    exact ⟨_, rfl⟩
  | otherwise passed _ ih =>
    obtain ⟨s₃, htaken⟩ := ih hbody
    rw [renderOnto_choose (renderBranches_otherwise passed _ _), htaken]
    exact ⟨_, rfl⟩

/-- What stands after the body still stands when everything is rendered. -/
theorem exists_after (h : d.Descends out blocks s buffer body s') {text full : String}
    {s₂ s₃ : Session κ σ} (hbody : d.renderOnto buffer body s' = some (.ok text, s₂))
    (hfull : d.renderOnto out blocks s = some (.ok full, s₃)) : ∃ after, full = text ++ after := by
  induction h generalizing full s₃ with
  | here =>
    cases hbody.symm.trans hfull
    exact ⟨"", String.append_empty.symm⟩
  | past rendered _ ih => exact ih hbody ((Run.bind_ok rendered).symm.trans hfull)
  | branch passed held _ ih =>
    obtain ⟨mid, s₄, more, htaken, hmore⟩ :=
      taken_of_choose (renderBranches_taken passed held _ _) hfull
    obtain ⟨after, hmid⟩ := ih hbody htaken
    exact ⟨after ++ more, by rw [hmore, hmid, String.append_assoc]⟩
  | otherwise passed _ ih =>
    obtain ⟨mid, s₄, more, htaken, hmore⟩ :=
      taken_of_choose (renderBranches_otherwise passed _ _) hfull
    obtain ⟨after, hmid⟩ := ih hbody htaken
    exact ⟨after ++ more, by rw [hmore, hmid, String.append_assoc]⟩

end Descends

end

/-! ## Main theorem -/

/-- **Rendering is compositional**, whatever is evaluated on the way, and whatever that does.

* Blocks in two parts are rendered one part after the other, each on its own, from the state that
  the other leaves. If the first part fails, that is all that happens; if it does not, the outcome
  is that of the second part, with the text of the first before it.
* In choices within choices, a body is rendered onto the text that stands there by then. That is the
  text from the beginning and one that does not depend on it. To it the body appends what it renders
  on its own from the same state; its failure is the failure of the whole; and what stood there and
  what was appended stand, unaltered, in the text of the whole. -/
theorem rendering_composes (d : Dispatch κ σ) :
    (∀ xs ys : List (Block κ), d.renderAll (xs ++ ys) =
      (do
        let a ← d.renderAll xs
        let b ← d.renderAll ys
        pure (a ++ b))) ∧
    (∀ (xs : List (Block κ)) s e s', d.renderAll xs s = some (.error e, s') →
      ∀ ys, d.renderAll (xs ++ ys) s = some (.error e, s')) ∧
    (∀ (xs : List (Block κ)) s a s₁, d.renderAll xs s = some (.ok a, s₁) →
      ∀ ys, d.renderAll (xs ++ ys) s =
        (d.renderAll ys s₁).map fun p => (p.1.map (a ++ ·), p.2)) ∧
    ∀ out blocks s buffer body s', d.Descends out blocks s buffer body s' →
      (∃ before, buffer = out ++ before ∧
        ∀ other, d.Descends other blocks s (other ++ before) body s') ∧
      d.renderOnto buffer body s' =
        (d.renderAll body s').map (fun p => (p.1.map (buffer ++ ·), p.2)) ∧
      (d.renderAll body s' = none → d.renderOnto out blocks s = none) ∧
      (∀ e s₂, d.renderAll body s' = some (.error e, s₂) →
        ∃ s₃, d.renderOnto out blocks s = some (.error e, s₃)) ∧
      ∀ text s₂ full s₃, d.renderAll body s' = some (.ok text, s₂) →
        d.renderOnto out blocks s = some (.ok full, s₃) →
        ∃ after, full = buffer ++ text ++ after := by
  refine ⟨d.renderAll_append, ?_, ?_, ?_⟩
  · intro xs s e s' hfails ys
    rw [renderAll_append]
    exact Run.bind_error hfails
  · intro xs s a s₁ hrendered ys
    rw [renderAll_append, Run.bind_ok hrendered, ← Run.map_apply]
    rfl
  · intro out blocks s buffer body s' hway
    have hbody : d.renderOnto buffer body s' =
        (d.renderAll body s').map (fun p => (p.1.map (buffer ++ ·), p.2)) := by
      rw [d.renderOnto_eq, Run.map_apply]
    refine ⟨hway.exists_before, hbody, fun hnone => ?_, fun e s₂ hfails => ?_, ?_⟩
    · exact hway.unfinished (by rw [hbody, hnone]; rfl)
    · exact hway.fails (by rw [hbody, hfails]; rfl)
    · intro text s₂ full s₃ htext hfull
      exact hway.exists_after (by rw [hbody, htext]; rfl) hfull

end Dispatch

/-- A choice inside a choice, with text before, between and after. -/
def nestedChoices : List (Block Failure) :=
  [.text "a", .choose [(.name "x", [.text "b", .choose [(.name "y", [.text "no"])]
    (some [.text "c"]), .text "d"])] none, .text "e"]

/-- A stack on which one of the two names is bound. -/
def choosingSession : Session Failure Unit :=
  ⟨{ maps := #[.ofList [("x", .int 1)]], host := () }, { layers := [.mapping ⟨0⟩] }⟩

/-- The inner body finds `ab` and appends `c`, after any text, and `e` is rendered from what the
rest has left. -/
theorem nestedChoices_compose :
    ∃ s s' s₂ s₃, (failingHost.dispatch 0).Descends "> " nestedChoices choosingSession "> ab"
        [.text "c"] s ∧
      (failingHost.dispatch 0).Descends "" nestedChoices choosingSession "ab" [.text "c"] s ∧
      (failingHost.dispatch 0).renderOnto "> ab" [.text "c"] s = some (.ok "> abc", s) ∧
      (failingHost.dispatch 0).renderAll (nestedChoices.take 2) choosingSession =
        some (.ok "abcd", s') ∧
      (failingHost.dispatch 0).renderAll [.text "e"] s' = some (.ok "e", s₂) ∧
      (failingHost.dispatch 0).renderAll nestedChoices choosingSession =
        some (.ok "abcde", s₃) := by
  obtain ⟨-, -, hparts, hwithin⟩ := (failingHost.dispatch 0).rendering_composes
  obtain ⟨s₁, hx, s, hy⟩ : ∃ s₁,
      (failingHost.dispatch 0).holds ⟨1⟩ (.name "x") choosingSession.enterChoice =
        some (.ok true, s₁) ∧
      ∃ s, (failingHost.dispatch 0).holds ⟨2⟩ (.name "y") s₁.enterChoice =
        some (.ok false, s) := ⟨_, rfl, _, rfl⟩
  have hworld : (s₁.world.newMap ∅).1 = ⟨2⟩ := by
    cases hx
    rfl
  have hinner : (failingHost.dispatch 0).Descends "> a" [.text "b", .choose [(.name "y",
      [.text "no"])] (some [.text "c"]), .text "d"] s₁ "> ab" [.text "c"] s :=
    .past rfl (.otherwise (.cons (hworld ▸ hy) (.nil s)) (.here "> ab" [.text "c"] s))
  have hway : (failingHost.dispatch 0).Descends "> " nestedChoices choosingSession "> ab"
      [.text "c"] s := by
    have hnone : (failingHost.dispatch 0).PassesOver ⟨1⟩ [] choosingSession.enterChoice
        choosingSession.enterChoice := .nil _
    exact .past rfl (.branch (s := choosingSession) hnone hx hinner)
  obtain ⟨⟨before, hbefore, hother⟩, hbody, -⟩ := hwithin _ _ _ _ _ _ hway
  have hab : before = "ab" := (String.append_right_inj "> ").mp hbefore.symm
  subst hab
  obtain ⟨s', htwo⟩ : ∃ s', (failingHost.dispatch 0).renderAll (nestedChoices.take 2)
      choosingSession = some (.ok "abcd", s') := ⟨_, rfl⟩
  obtain ⟨s₂, hlast⟩ : ∃ s₂, (failingHost.dispatch 0).renderAll [.text "e"] s' =
      some (.ok "e", s₂) := ⟨_, rfl⟩
  refine ⟨s, s', s₂, s₂, hway, hother "", hbody, htwo, hlast, ?_⟩
  exact (hparts (nestedChoices.take 2) choosingSession "abcd" s' htwo [.text "e"]).trans
    (by rw [hlast]; rfl)

end LayeredScope
