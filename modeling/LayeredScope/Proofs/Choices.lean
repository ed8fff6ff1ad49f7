import LayeredScope.Proofs.Conditions

/-!
# How a choice is made

A choice looks at its conditions in order. What the names among them resolve to is bound in the
mapping of the choice, so each condition is looked at under what the earlier ones have left there,
and so is the branch that is taken. The state of the loop is therefore not only whether a condition
held, but the bindings.

* `Session.Offers` — the mapping of a choice is the newest layer, and has exactly these bindings.
* `Dispatch.Tests` — one condition: what it comes to, and what it adds to the bindings.
* `Dispatch.Chooses` — the conditions of a choice, one after the other, up to the first that
  holds or fails.
* `Dispatch.settle` — what is rendered when the choice is made.
* `Dispatch.Spared` — no evaluation of a condition meddles with the mapping of the choice.
* `Host.choice_iff` — **a choice is rendered exactly as its conditions are tested**, and its
  bindings are gone when it ends.
-/

namespace LayeredScope

variable {κ σ : Type}

/-- The newest layer is the mapping of a choice over the layers below, and it binds each of the
names to the value, to the later value where a name is listed twice, and no other name. -/
structure Session.Offers (kept : MapId) (below : List Layer) (bound : List (String × Value))
    (s : Session κ σ) : Prop where
  layers : s.stack.layers = .mapping kept :: below
  binds : s.world.Binds kept (.ofList bound)

theorem Entries.ofList_append {α : Type} (bound : List (String × α)) (name : String) (v : α) :
    Entries.ofList (bound ++ [(name, v)]) = (Entries.ofList bound).insert name v := by
  unfold Entries.ofList
  rw [List.foldl_append]
  rfl

/-- A choice begins with nothing bound. -/
theorem Session.offers_enterChoice (s : Session κ σ) :
    s.enterChoice.Offers (s.world.newMap ∅).1 s.stack.layers [] where
  layers := rfl
  binds := by
    refine ⟨?_, World.entries_newMap s.world ∅⟩
    simp [Session.enterChoice, World.Issued, World.newMap]

/-- A name that is resolved is bound beside the earlier ones. -/
theorem Session.Offers.keep {kept : MapId} {below : List Layer} {bound : List (String × Value)}
    {s : Session κ σ} (h : s.Offers kept below bound) (name : String) (v : Value) :
    (s.keep kept name v).Offers kept below (bound ++ [(name, v)]) where
  layers := h.layers
  binds := by
    rw [Entries.ofList_append]
    exact h.binds.insert name v

namespace Dispatch

variable (d : Dispatch κ σ)

/-! ## The semantics -/

/-- What one condition comes to, under the bindings that there are: does it hold, and what is bound
after it? -/
inductive Tests (kept : MapId) (bound : List (String × Value)) :
    Expr κ → Session κ σ → Except Failure Bool → List (String × Value) → Session κ σ → Prop
  /-- A name resolves: its value decides, and is bound. -/
  | resolved {name : String} {v : Value} {s s' : Session κ σ}
      (found : d.lookup name true s = some (.ok v, s')) :
      Tests kept bound (.name name) s (.ok (s'.world.isTruthy v)) (bound ++ [(name, v)])
        (s'.keep kept name v)
  /-- A miss of that very name does not hold. -/
  | missing {name : String} {s s' : Session κ σ}
      (missed : d.lookup name true s = some (.error (.missingKey name), s')) :
      Tests kept bound (.name name) s (.ok false) bound s'
  /-- Any other failure stays one. -/
  | failed {name : String} {e : Failure} {s s' : Session κ σ}
      (failure : d.lookup name true s = some (.error e, s')) (other : e ≠ .missingKey name) :
      Tests kept bound (.name name) s (.error e) bound s'
  /-- Code answers: its value decides, and nothing is bound. -/
  | computed {code : κ} {v : Value} {s s' : Session κ σ}
      (answer : d.evaluate code s = some (.ok v, s')) :
      Tests kept bound (.code code) s (.ok (s'.world.isTruthy v)) bound s'
  | broken {code : κ} {e : Failure} {s s' : Session κ σ}
      (failure : d.evaluate code s = some (.error e, s')) :
      Tests kept bound (.code code) s (.error e) bound s'

/-- The conditions of a choice are tested in order, each over the bindings of the earlier ones,
until one holds or fails. The verdict is the body of the branch that is taken, or that there is
none, or the failure. -/
inductive Chooses (kept : MapId) (below : List Layer) :
    List (String × Value) → List (Expr κ × List (Block κ)) → Session κ σ →
      Except Failure (Option (List (Block κ))) → List (String × Value) → Session κ σ → Prop
  | exhausted {bound : List (String × Value)} {s : Session κ σ}
      (offers : s.Offers kept below bound) :
      Chooses kept below bound [] s (.ok none) bound s
  | taken {bound bound' : List (String × Value)} {condition : Expr κ} {body : List (Block κ)}
      {rest : List (Expr κ × List (Block κ))} {s s' : Session κ σ}
      (offers : s.Offers kept below bound)
      (held : d.Tests kept bound condition s (.ok true) bound' s')
      (offers' : s'.Offers kept below bound') :
      Chooses kept below bound ((condition, body) :: rest) s (.ok (some body)) bound' s'
  | passed {bound bound₁ bound' : List (String × Value)} {condition : Expr κ}
      {body : List (Block κ)} {rest : List (Expr κ × List (Block κ))} {s s₁ s' : Session κ σ}
      {verdict : Except Failure (Option (List (Block κ)))} (offers : s.Offers kept below bound)
      (held : d.Tests kept bound condition s (.ok false) bound₁ s₁)
      (later : Chooses kept below bound₁ rest s₁ verdict bound' s') :
      Chooses kept below bound ((condition, body) :: rest) s verdict bound' s'
  | aborted {bound bound' : List (String × Value)} {condition : Expr κ} {body : List (Block κ)}
      {rest : List (Expr κ × List (Block κ))} {s s' : Session κ σ} {e : Failure}
      (offers : s.Offers kept below bound)
      (failure : d.Tests kept bound condition s (.error e) bound' s') :
      Chooses kept below bound ((condition, body) :: rest) s (.error e) bound' s'

/-- What is rendered when the choice is made, after a text: the blocks of the branch that is
taken, or where there is none those that follow otherwise, or nothing more where there are none of
these either. -/
def settle (out : String) (otherwise : Option (List (Block κ)))
    (verdict : Except Failure (Option (List (Block κ)))) : Run (Session κ σ) String :=
  match verdict, otherwise with
  | .error e, _ => Run.fail e
  | .ok (some body), _ => d.renderOnto out body
  | .ok none, some body => d.renderOnto out body
  | .ok none, none => pure out

/-- The evaluations of the conditions that the choice comes to leave the entries of its mapping as
they are. -/
def Spared (kept : MapId) (branches : List (Expr κ × List (Block κ))) (s : Session κ σ) : Prop :=
  ∀ before condition body after s₁ r s₂ entries, branches = before ++ (condition, body) :: after →
    d.PassesOver kept before s s₁ → d.valueOf condition s₁ = some (r, s₂) →
    s₁.world.Binds kept entries → s₂.world.Binds kept entries

variable {d}

/-! ## One condition -/

section

variable {kept : MapId} {below : List Layer} {bound bound' : List (String × Value)}
  {condition : Expr κ} {body : List (Block κ)} {rest : List (Expr κ × List (Block κ))}
  {s s' s₁ s₂ : Session κ σ}

theorem holds_code_apply (kept : MapId) (code : κ) (s : Session κ σ) :
    d.holds kept (.code code) s =
      match d.evaluate code s with
      | none => none
      | some (.ok v, s) => some (.ok (s.world.isTruthy v), s)
      | some (.error e, s) => some (.error e, s) := by
  show (d.evaluate code >>= _) s = _
  rw [Run.bind_apply]
  cases d.evaluate code s with
  | none => rfl
  | some p =>
    obtain ⟨r, s'⟩ := p
    cases r <;> rfl

/-- A condition that is looked at comes to what it is tested for. -/
theorem Tests.of_holds {r : Except Failure Bool}
    (h : d.holds kept condition s = some (r, s')) (bound : List (String × Value)) :
    ∃ bound', d.Tests kept bound condition s r bound' s' := by
  cases condition with
  | name name =>
    rw [holds_name_apply] at h
    cases hlookup : d.lookup name true s with
    | none => rw [hlookup] at h; cases h
    | some p =>
      obtain ⟨answer, s₁⟩ := p
      rw [hlookup] at h
      cases answer with
      | ok v =>
        cases h
        exact ⟨_, .resolved hlookup⟩
      | error e =>
        dsimp only at h
        split at h
        · next hmiss =>
          cases h
          rw [Failure.isMissOf_iff.mp hmiss] at hlookup
          exact ⟨bound, .missing hlookup⟩
        · next hmiss =>
          cases h
          exact ⟨bound, .failed hlookup fun heq => hmiss (Failure.isMissOf_iff.mpr heq)⟩
  | code code =>
    rw [holds_code_apply] at h
    cases hanswer : d.evaluate code s with
    | none => rw [hanswer] at h; cases h
    | some p =>
      obtain ⟨answer, s₁⟩ := p
      rw [hanswer] at h
      cases answer with
      | ok v =>
        cases h
        exact ⟨bound, .computed hanswer⟩
      | error e =>
        cases h
        exact ⟨bound, .broken hanswer⟩

theorem Tests.holds_eq {r : Except Failure Bool} (h : d.Tests kept bound condition s r bound' s') :
    d.holds kept condition s = some (r, s') := by
  cases h with
  | resolved found =>
    rw [holds_name_apply, found]
    rfl
  | missing missed =>
    rw [holds_name_apply, missed]
    simp
  | failed failure other =>
    have hmiss := mt Failure.isMissOf_iff.mp other
    rw [holds_name_apply, failure]
    simp [hmiss]
  | computed answer =>
    rw [holds_code_apply, answer]
  | broken failure =>
    rw [holds_code_apply, failure]

/-- The mapping stays the newest layer, and has the bindings that the condition adds to. -/
theorem Tests.offers {r : Except Failure Bool} (hlayers : d.KeepsLayers)
    (h : d.Tests kept bound condition s r bound' s') (hs : s.Offers kept below bound)
    (hspared : ∀ r s₁ entries, d.valueOf condition s = some (r, s₁) →
      s.world.Binds kept entries → s₁.world.Binds kept entries) :
    s'.Offers kept below bound' := by
  have hvalue {r : Except Failure Value} {s₁ : Session κ σ}
      (hx : d.valueOf condition s = some (r, s₁)) : s₁.Offers kept below bound :=
    ⟨(hlayers.valueOf condition _ _ _ hx).trans hs.layers, hspared _ _ _ hx hs.binds⟩
  cases h with
  | resolved found => exact (hvalue found).keep _ _
  | missing missed => exact hvalue missed
  | failed failure other => exact hvalue failure
  | computed answer => exact hvalue answer
  | broken failure => exact hvalue failure

/-! ## All conditions -/

theorem Spared.head (h : d.Spared kept ((condition, body) :: rest) s) (r : Except Failure Value)
    (s₁ : Session κ σ) (entries : Entries Value) (hx : d.valueOf condition s = some (r, s₁))
    (hs : s.world.Binds kept entries) : s₁.world.Binds kept entries :=
  h [] condition body rest s r s₁ entries rfl (.nil s) hx hs

theorem Spared.tail (h : d.Spared kept ((condition, body) :: rest) s)
    (hheld : d.holds kept condition s = some (.ok false, s₁)) : d.Spared kept rest s₁ := by
  intro before condition' body' after s₂ r s₃ entries hrest hpassed
  exact h ((condition, body) :: before) condition' body' after s₂ r s₃ entries
    (by rw [hrest, List.cons_append]) (.cons hheld hpassed)

/-- The condition of the first branch decides whether the others are looked at. -/
theorem renderBranches_cons (out : String) (otherwise : Run (Session κ σ) String)
    (s : Session κ σ) :
    d.renderBranches out kept otherwise ((condition, body) :: rest) s =
      match d.holds kept condition s with
      | none => none
      | some (.error e, s₁) => some (.error e, s₁)
      | some (.ok true, s₁) => d.renderOnto out body s₁
      | some (.ok false, s₁) => d.renderBranches out kept otherwise rest s₁ := by
  show (d.holds kept condition >>= _) s = _
  rw [Run.bind_apply]
  cases d.holds kept condition s with
  | none => rfl
  | some p =>
    obtain ⟨r, s₁⟩ := p
    cases r with
    | error e => rfl
    | ok held => cases held <;> rfl

theorem settle_none (out : String) (otherwise : Option (List (Block κ))) :
    d.settle out otherwise (.ok none) = d.renderOtherwise out otherwise := by
  cases otherwise <;> rfl

/-- What is rendered follows from a choice that is made by the conditions. -/
theorem Chooses.renderBranches_eq {verdict : Except Failure (Option (List (Block κ)))}
    {branches : List (Expr κ × List (Block κ))} (out : String)
    (otherwise : Option (List (Block κ)))
    (h : d.Chooses kept below bound branches s verdict bound' s') :
    d.renderBranches out kept (d.renderOtherwise out otherwise) branches s =
      d.settle out otherwise verdict s' := by
  induction h with
  | exhausted offers => rw [settle_none]; rfl
  | taken offers held offers' => rw [renderBranches_cons, held.holds_eq]; rfl
  | passed offers held later ih => rw [renderBranches_cons, held.holds_eq]; exact ih
  | aborted offers failure => rw [renderBranches_cons, failure.holds_eq]; rfl

/-- The bindings at the end of a choice are those that the branch is rendered under. -/
theorem Chooses.offers {verdict : Option (List (Block κ))}
    {branches : List (Expr κ × List (Block κ))}
    (h : d.Chooses kept below bound branches s (.ok verdict) bound' s') :
    s'.Offers kept below bound' := by
  generalize hv : (Except.ok verdict : Except Failure (Option (List (Block κ)))) = v at h
  induction h with
  | exhausted offers => exact offers
  | taken offers held offers' => exact offers'
  | passed offers held later ih => exact ih hv
  | aborted offers failure => cases hv

/-- Whatever is rendered has been chosen by testing the conditions, from the bindings at hand. -/
theorem Chooses.of_renderBranches {branches : List (Expr κ × List (Block κ))} {out : String}
    {otherwise : Option (List (Block κ))} {r : Except Failure String} (hlayers : d.KeepsLayers)
    (hspared : d.Spared kept branches s) (hs : s.Offers kept below bound)
    (h : d.renderBranches out kept (d.renderOtherwise out otherwise) branches s = some (r, s')) :
    ∃ verdict bound' s₁, d.Chooses kept below bound branches s verdict bound' s₁ ∧
      d.settle out otherwise verdict s₁ = some (r, s') := by
  induction branches generalizing bound s with
  | nil => exact ⟨.ok none, bound, s, .exhausted hs, by rw [settle_none]; exact h⟩
  | cons branch rest ih =>
    obtain ⟨condition, body⟩ := branch
    rw [renderBranches_cons] at h
    cases hholds : d.holds kept condition s with
    | none => rw [hholds] at h; cases h
    | some p =>
      obtain ⟨held, s₁⟩ := p
      rw [hholds] at h
      obtain ⟨bound₁, htests⟩ := Tests.of_holds hholds bound
      have hs₁ : s₁.Offers kept below bound₁ := htests.offers hlayers hs hspared.head
      match held, h, hholds, htests with
      | .error e, h, _, htests => exact ⟨.error e, bound₁, s₁, .aborted hs htests, h⟩
      | .ok true, h, _, htests => exact ⟨.ok (some body), bound₁, s₁, .taken hs htests hs₁, h⟩
      | .ok false, h, hholds, htests =>
        obtain ⟨verdict, bound', s₂, hlater, hsettled⟩ := ih (hspared.tail hholds) hs₁ h
        exact ⟨verdict, bound', s₂, .passed hs htests hlater, hsettled⟩

end

/-! ## The whole choice -/

/-- Taking the mapping of a choice off again restores the layers. -/
theorem close_choice {kept : MapId} {below : List Layer} {s : Stack κ}
    (h : s.layers = .mapping kept :: below) :
    Guard.close ⟨1, none⟩ s = { s with layers := below } := by
  have hsplit : s.layers = [.mapping kept] ++ below := h
  rw [Guard.close_eq hsplit rfl]
  rfl

/-- A choice that is made leads to what is rendered, and what is rendered comes from such
a choice. -/
theorem renderBlock_choose_iff (hlayers : d.KeepsLayers) {out : String}
    {branches : List (Expr κ × List (Block κ))} {otherwise : Option (List (Block κ))}
    {s s' : Session κ σ} {r : Except Failure String}
    (hspared : d.Spared (s.world.newMap ∅).1 branches s.enterChoice) :
    d.renderBlock out (.choose branches otherwise) s = some (r, s') ↔
      ∃ verdict bound s₁ s₂,
        d.Chooses (s.world.newMap ∅).1 s.stack.layers [] branches s.enterChoice verdict bound s₁ ∧
        d.settle out otherwise verdict s₁ = some (r, s₂) ∧
        s' = ⟨s₂.world, { s₂.stack with layers := s.stack.layers }⟩ := by
  have hrestored {s₂ : Session κ σ} (h : d.renderBranches out (s.world.newMap ∅).1
      (d.renderOtherwise out otherwise) branches s.enterChoice = some (r, s₂)) :
      Guard.close ⟨1, none⟩ s₂.stack = { s₂.stack with layers := s.stack.layers } :=
    close_choice
      (hlayers.renderBranches out _ (hlayers.renderOtherwise out otherwise) branches _ _ _ h)
  constructor
  · intro h
    rw [renderBlock_choose_apply] at h
    cases hbranches : d.renderBranches out (s.world.newMap ∅).1 (d.renderOtherwise out otherwise)
        branches s.enterChoice with
    | none => rw [hbranches] at h; cases h
    | some p =>
      obtain ⟨r', s₂⟩ := p
      rw [hbranches] at h
      cases h
      obtain ⟨verdict, bound, s₁, hchosen, hsettled⟩ :=
        Chooses.of_renderBranches hlayers hspared s.offers_enterChoice hbranches
      refine ⟨verdict, bound, s₁, s₂, hchosen, hsettled, ?_⟩
      rw [hrestored hbranches]
  · rintro ⟨verdict, bound, s₁, s₂, hchosen, hsettled, rfl⟩
    have hbranches := (hchosen.renderBranches_eq out otherwise).trans hsettled
    rw [renderBlock_choose hbranches, hrestored hbranches]

/-- Calls that leave the mapping of the choice alone do not meddle with it. -/
theorem Spared.of_upholds {kept : MapId} {branches : List (Expr κ × List (Block κ))}
    {s : Session κ σ} (h : ∀ entries, d.Upholds (World.Binds kept entries)) :
    d.Spared kept branches s := by
  intro before condition body after s₁ r s₂ entries _ _ hvalue hbinds
  exact (h entries).valueOf (.binds kept entries) condition _ _ _ hbinds hvalue

end Dispatch

/-- The mapping of a choice is none of the mappings that there were before. -/
theorem World.Issued.ne_newMap {w : World κ σ} {m : MapId} (h : w.Issued m) :
    m ≠ (w.newMap ∅).1 := by
  rintro rfl
  exact Nat.lt_irrefl _ h

/-! ## Main theorem -/

/-- **A choice is rendered exactly as its conditions are tested.** The conditions are tested in
order, each at most once and none after the first that holds or fails, over one more layer: a
mapping that binds the names of the earlier conditions that were resolved to what they were resolved
to, and nothing else. Only a miss of the very name that is tested means no; any other failure is
that of the choice, and nothing more is rendered. The body of the first branch that holds, or else
what follows otherwise, is rendered under these bindings, with their mapping still the newest layer
before each block; and at the end the layers are those from before, without the mapping.

The code of the host has to leave the layers as it found them, and while the conditions are
tested the entries of the mapping; that it never writes there is more than enough. -/
theorem Host.choice_iff (h : Host κ σ) (fuel : Nat) (hlayers : h.KeepsLayers) (out : String)
    (branches : List (Expr κ × List (Block κ))) (otherwise : Option (List (Block κ)))
    (s : Session κ σ) :
    ((h.dispatch fuel).Spared (s.world.newMap ∅).1 branches s.enterChoice →
      ∀ r s', (h.dispatch fuel).renderBlock out (.choose branches otherwise) s = some (r, s') ↔
        ∃ verdict bound s₁ s₂,
          (h.dispatch fuel).Chooses (s.world.newMap ∅).1 s.stack.layers [] branches s.enterChoice
            verdict bound s₁ ∧
          (h.dispatch fuel).settle out otherwise verdict s₁ = some (r, s₂) ∧
          s' = ⟨s₂.world, { s₂.stack with layers := s.stack.layers }⟩) ∧
    (∀ verdict bound s₁,
      (h.dispatch fuel).Chooses (s.world.newMap ∅).1 s.stack.layers [] branches s.enterChoice
        (.ok verdict) bound s₁ →
      s₁.Offers (s.world.newMap ∅).1 s.stack.layers bound ∧
      ∀ earlier out' s₂, (h.dispatch fuel).renderOnto out earlier s₁ = some (.ok out', s₂) →
        s₂.stack.layers = .mapping (s.world.newMap ∅).1 :: s.stack.layers) ∧
    (∀ r s', (h.dispatch fuel).renderBlock out (.choose branches otherwise) s = some (r, s') →
      s'.stack.layers = s.stack.layers ∧
      ((∀ m, .mapping m ∈ s.stack.layers → s.world.Issued m) →
        .mapping (s.world.newMap ∅).1 ∉ s'.stack.layers)) ∧
    (h.Spares (s.world.newMap ∅).1 →
      (h.dispatch fuel).Spared (s.world.newMap ∅).1 branches s.enterChoice) := by
  have hkeeps := Host.dispatch_keepsLayers hlayers fuel
  refine ⟨fun hspared r s' => Dispatch.renderBlock_choose_iff hkeeps hspared, ?_, ?_, ?_⟩
  · intro verdict bound s₁ hchosen
    refine ⟨hchosen.offers, fun earlier out' s₂ hearlier => ?_⟩
    have hunchanged := hkeeps.renderOnto out earlier _ _ _ hearlier
    rw [hunchanged, hchosen.offers.layers]
  · intro r s' hrendered
    have hrestored : s'.stack.layers = s.stack.layers :=
      hkeeps.renderBlock out (.choose branches otherwise) _ _ _ hrendered
    refine ⟨hrestored, fun hissued hmem => ?_⟩
    rw [hrestored] at hmem
    exact (hissued _ hmem).ne_newMap rfl
  · intro hspares
    exact .of_upholds fun entries => Host.dispatch_upholds (.binds _ entries) (hspares entries) fuel

/-- A choice of two branches: the first name is missing, the second stands for a function. -/
def echoChoice : List (Expr Value × List (Block Value)) :=
  [(.name "g", [.text "no"]), (.name "f", [.text "yes"])]

/-- The stack on which the function is bound. -/
def echoSession : Session Value Unit := ⟨echoWorld (.str "ada"), { layers := [.mapping ⟨0⟩] }⟩

/-- The first condition binds nothing, the second what the function answers, and its branch is
rendered. -/
theorem echoHost_choice :
    echoHost.KeepsLayers ∧ echoHost.Spares ⟨1⟩ ∧
    ∃ s₁ s₂, (echoHost.dispatch 1).Chooses ⟨1⟩ [.mapping ⟨0⟩] [] echoChoice echoSession.enterChoice
        (.ok (some [.text "yes"])) [("f", .str "ada")] s₁ ∧
      (echoHost.dispatch 1).renderBlock "dear, " (.choose echoChoice none) echoSession =
        some (.ok "dear, yes", s₂) := by
  obtain ⟨hiff, -, -, hspared⟩ :=
    echoHost.choice_iff 1 echoHost_keepsLayers "dear, " echoChoice none
    echoSession
  have hleft := hspared (echoHost_spares _)
  obtain ⟨s₁, hmiss, s₂, hlookup⟩ : ∃ s₁,
      (echoHost.dispatch 1).lookup "g" true echoSession.enterChoice =
        some (.error (.missingKey "g"), s₁) ∧
      ∃ s₂, (echoHost.dispatch 1).lookup "f" true s₁ = some (.ok (.str "ada"), s₂) :=
    ⟨_, rfl, _, rfl⟩
  have hmissed :
      (echoHost.dispatch 1).Tests ⟨1⟩ [] (.name "g") echoSession.enterChoice (.ok false) []
      s₁ := .missing hmiss
  have hheld : (echoHost.dispatch 1).Tests ⟨1⟩ [] (.name "f") s₁ (.ok true) [("f", .str "ada")]
      (s₂.keep ⟨1⟩ "f" (.str "ada")) := .resolved hlookup
  -- the layer of the choice is in place before each condition and before the branch
  have hkeeps := Host.dispatch_keepsLayers echoHost_keepsLayers 1
  have hbegins := echoSession.offers_enterChoice
  have hoffers := hmissed.offers hkeeps hbegins hleft.head
  have hoffers' := hheld.offers hkeeps hoffers (hleft.tail hmissed.holds_eq).head
  have hchosen : (echoHost.dispatch 1).Chooses ⟨1⟩ [.mapping ⟨0⟩] [] echoChoice
      echoSession.enterChoice (.ok (some [.text "yes"])) [("f", .str "ada")]
      (s₂.keep ⟨1⟩ "f" (.str "ada")) := .passed hbegins hmissed (.taken hoffers hheld hoffers')
  exact ⟨echoHost_keepsLayers, echoHost_spares _, _, _, hchosen,
    (hiff hleft _ _).mpr ⟨_, _, _, _, hchosen, rfl, rfl⟩⟩

end LayeredScope
