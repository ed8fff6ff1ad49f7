import LayeredScope.Host.Answer
import LayeredScope.Proofs.Walk

/-!
# Misses, and failures of what is invoked

A look-up fails when no layer has the name, and also when the value that was found fails as it is
invoked. Conditions and bundles answer a miss of the name by themselves, and know it from the
failure alone: from the kind of the failure and the key in it.

* `Dispatch.FailsInvoked` — the name is found, and its value fails when it is invoked.
* `Dispatch.PassesOver` — the conditions of some branches are all found not to hold.
* `Bundle.answer`, `Dispatch.readEnclosure_eq` — an attribute of a bundle is what a look-up on the
  stack of the bundle comes to.
* `Host.failure_of_invoked` — **every failure but a miss of that very name stays what it is**; that
  one is taken for a miss of the look-up itself.
-/

namespace LayeredScope

variable {κ σ : Type}

namespace Dispatch

variable (d : Dispatch κ σ)

/-- The name is found, and what it stands for fails with `e` when it is invoked. -/
def FailsInvoked (name : String) (s : Session κ σ) (e : Failure) (s' : Session κ σ) : Prop :=
  ∃ v w, d.fetch s.stack name s.world = some (.ok v, w) ∧
    d.onAccess v ⟨w, s.stack⟩ = some (.error e, s')

/-- The conditions of the branches are looked at one after the other, and none of them holds. -/
inductive PassesOver (kept : MapId) :
    List (Expr κ × List (Block κ)) → Session κ σ → Session κ σ → Prop
  | nil (s : Session κ σ) : PassesOver kept [] s s
  | cons {condition : Expr κ} {body : List (Block κ)} {rest : List (Expr κ × List (Block κ))}
      {s₁ s₂ s₃ : Session κ σ} (held : d.holds kept condition s₁ = some (.ok false, s₂))
      (passed : PassesOver kept rest s₂ s₃) : PassesOver kept ((condition, body) :: rest) s₁ s₃

variable {d}

namespace PassesOver

variable {kept : MapId} {before rest : List (Expr κ × List (Block κ))} {s s' s'' : Session κ σ}

theorem append (h : d.PassesOver kept before s s') (h' : d.PassesOver kept rest s' s'') :
    d.PassesOver kept (before ++ rest) s s'' := by
  induction h with
  | nil s => exact h'
  | cons held _ ih => exact .cons held (ih h')

/-- Branches that are passed over make no difference to the choice, but for what their conditions
did. -/
theorem renderBranches_eq (h : d.PassesOver kept before s s') (out : String)
    (otherwise : Run (Session κ σ) String) :
    d.renderBranches out kept otherwise (before ++ rest) s =
      d.renderBranches out kept otherwise rest s' := by
  induction h with
  | nil s => rfl
  | cons held _ ih =>
    rw [← ih]
    exact Run.bind_ok held

end PassesOver

/-- Blocks are rendered one after the other. -/
theorem renderOnto_append (out : String) (earlier later : List (Block κ)) :
    d.renderOnto out (earlier ++ later) =
      d.renderOnto out earlier >>= fun out => d.renderOnto out later := by
  induction earlier generalizing out with
  | nil => rfl
  | cons block rest ih =>
    show (d.renderBlock out block >>= fun out => d.renderOnto out (rest ++ later)) =
      (d.renderBlock out block >>= fun out => d.renderOnto out rest) >>= _
    simp only [ih, bind_assoc]

namespace FailsInvoked

variable {name : String} {s s' : Session κ σ} {e : Failure}

theorem lookup (h : d.FailsInvoked name s e s') :
    d.lookup name true s = some (.error e, s') := by
  obtain ⟨v, w, hfetch, haccess⟩ := h
  show ((d.fetch s.stack name).onWorld >>= d.onAccess) s = _
  rw [Run.bind_ok (Run.onWorld_eq hfetch), haccess]

/-- A condition that fails so: only a miss of the name that is looked up means no. -/
theorem holds (h : d.FailsInvoked name s e s') (kept : MapId) :
    d.holds kept (.name name) s =
      some (if e = .missingKey name then .ok false else .error e, s') := by
  rw [holds_name_apply, h.lookup]
  simp only [Failure.isMissOf_iff]

end FailsInvoked

end Dispatch

/-! ## Bundles -/

/-- A bundle over a stack that nobody is reading looks attributes up there. -/
theorem Answer.readAttr_idle (h : Host κ σ) (d : Dispatch κ σ) {bundle : ObjectId}
    {id : EnclosureId} {stack : Stack κ} {w : World κ σ}
    (hbundle : w.object bundle = .bundle (.enclosure id))
    (hidle : w.enclosures[id.index]? = some (.idle stack)) (name : String) :
    readAttr h d (.object bundle) name w = d.readEnclosure id stack name w := by
  simp only [readAttr, Run.bind_ok (Run.get_apply w), hbundle, Dispatch.readBundle, hidle]

/-- The outcome of a look-up as the answer of a bundle: only a miss of that very name is an absent
attribute. -/
def Bundle.answer (name : String) : Except Failure Value → Except Failure Value
  | .ok value => .ok value
  | .error e => .error (if e = .missingKey name then Bundle.absent name else e)

/-- The stack is lent to a look-up, and then given back as that leaves it. -/
theorem Dispatch.readEnclosure_eq (d : Dispatch κ σ) (id : EnclosureId) (stack : Stack κ)
    (name : String) (w : World κ σ) :
    d.readEnclosure id stack name w =
      (d.lookup name true ⟨w.setEnclosure id .reading, stack⟩).map fun p =>
        (Bundle.answer name p.1, p.2.world.setEnclosure id (.idle p.2.stack)) := by
  unfold Dispatch.readEnclosure
  rcases d.lookup name true ⟨w.setEnclosure id .reading, stack⟩ with _ | ⟨e | value, s⟩
  · rfl
  · simp only [Failure.isMissOf_iff]
    rfl
  · rfl

theorem Dispatch.readEnclosure_error {d : Dispatch κ σ} {id : EnclosureId} {stack : Stack κ}
    {name : String} {w : World κ σ} {e : Failure} {s : Session κ σ}
    (h : d.lookup name true ⟨w.setEnclosure id .reading, stack⟩ = some (.error e, s))
    (hother : e ≠ .missingKey name) :
    d.readEnclosure id stack name w = some (.error e, s.world.setEnclosure id (.idle s.stack)) := by
  rw [d.readEnclosure_eq, h, Option.map_some, Bundle.answer, if_neg hother]

/-! ## Main theorem -/

/-- **What becomes of the failure of an invoked value.** Let a name be found, and its value fail
with `e` when it is invoked. If `e` is anything but a miss of that very name, a choice that comes to
a condition on the name fails with `e`, as does all that is rendered, and a bundle that is asked for
the name fails with `e` as well. If `e` is a miss of that name, the branch is passed over instead,
and the attribute is absent. -/
theorem Host.failure_of_invoked (h : Host κ σ) (d : Dispatch κ σ) (name : String) (e : Failure) :
    (∀ earlier later before body rest otherwise out s s₀ s₁ s₂,
      d.renderAll earlier s = some (.ok out, s₀) →
      d.PassesOver (s₀.world.newMap ∅).1 before s₀.enterChoice s₁ →
      d.FailsInvoked name s₁ e s₂ →
      (e ≠ .missingKey name → ∃ s',
        d.renderAll (earlier ++
          .choose (before ++ (.name name, body) :: rest) otherwise :: later) s =
            some (.error e, s')) ∧
      (e = .missingKey name →
        d.PassesOver (s₀.world.newMap ∅).1 (before ++ [(.name name, body)]) s₀.enterChoice s₂)) ∧
    ∀ bundle id stack w s', w.object bundle = .bundle (.enclosure id) →
      w.enclosures[id.index]? = some (.idle stack) →
      d.FailsInvoked name ⟨w.setEnclosure id .reading, stack⟩ e s' →
      Answer.readAttr h d (.object bundle) name w =
        some (.error (if e = .missingKey name then Bundle.absent name else e),
          s'.world.setEnclosure id (.idle s'.stack)) := by
  constructor
  · intro earlier later before body rest otherwise out s s₀ s₁ s₂ hearlier hpassed hfails
    have hholds := hfails.holds (s₀.world.newMap ∅).1
    refine ⟨fun hne => ?_, fun heq => ?_⟩
    · rw [if_neg hne] at hholds
      have hbranches : d.renderBranches out (s₀.world.newMap ∅).1 (d.renderOtherwise out otherwise)
          (before ++ (.name name, body) :: rest) s₀.enterChoice = some (.error e, s₂) := by
        rw [hpassed.renderBranches_eq]
        exact Run.bind_error hholds
      have hchoice := Dispatch.renderBlock_choose hbranches
      have hsplit : d.renderAll (earlier ++
          .choose (before ++ (.name name, body) :: rest) otherwise :: later) s =
            d.renderOnto out (.choose (before ++ (.name name, body) :: rest) otherwise :: later)
              s₀ := by
        unfold Dispatch.renderAll
        rw [Dispatch.renderOnto_append]
        exact Run.bind_ok hearlier
      rw [hsplit]
      exact ⟨_, Run.bind_error hchoice⟩
    · rw [if_pos heq] at hholds
      exact hpassed.append (.cons hholds (.nil s₂))
  · intro bundle id stack w s' hbundle hidle hfails
    have hread : d.readEnclosure id stack name w =
        some (.error (if e = .missingKey name then Bundle.absent name else e),
          s'.world.setEnclosure id (.idle s'.stack)) := by
      unfold Dispatch.readEnclosure
      rw [hfails.lookup]
      simp only [Failure.isMissOf_iff]
    rw [← hread]
    simp only [Answer.readAttr, Run.bind_ok (Run.get_apply w), hbundle, Dispatch.readBundle, hidle]

/-- A host whose functions do nothing but fail. -/
def failingHost : Host Failure Unit where
  readAttr _ _ := .answer .none
  readItem _ _ := .answer none
  call e := .fail e
  apply _ _ := .answer .none
  hook _ := .answer none
  access _ _ _ := .answer .none
  evaluate _ := .answer .none

/-- A name that stands for such a function, in a mapping and by way of a bundle. -/
def failingWorld (e : Failure) : World Failure Unit where
  maps := #[.ofList [("a", .function ⟨0⟩)]]
  objects := #[.bundle (.enclosure ⟨0⟩)]
  functions := #[⟨"f", e⟩]
  enclosures := #[.idle { layers := [.mapping ⟨0⟩] }]
  host := ()

/-- The choice that is made on the name. -/
def failingChoice : List (Block Failure) :=
  [.choose [(.name "a", [.text "yes"])] (some [.text "no"])]

/-- A refusal ends the choice and the read alike; a miss of the name itself ends neither as such. -/
theorem failingHost_failure_of_invoked :
    (∃ s', (failingHost.dispatch 2).renderAll failingChoice
      ⟨failingWorld (.policyDenial "a" "no"), { layers := [.mapping ⟨0⟩] }⟩ =
        some (.error (.policyDenial "a" "no"), s')) ∧
    ∃ w', (failingHost.dispatch 3).readAttr (.object ⟨0⟩) "a" (failingWorld (.missingKey "a")) =
      some (.error (Bundle.absent "a"), w') := by
  constructor
  · have hfailure := failingHost.failure_of_invoked (failingHost.dispatch 2) "a"
      (.policyDenial "a" "no")
    refine (hfailure.1 [] [] [] [.text "yes"] [] (some [.text "no"]) "" _ _ _ _ rfl (.nil _)
      ⟨.function ⟨0⟩, _, rfl, rfl⟩).1 nofun
  · have hfailure := failingHost.failure_of_invoked (failingHost.dispatch 2) "a" (.missingKey "a")
    exact ⟨_, hfailure.2 ⟨0⟩ ⟨0⟩ { layers := [.mapping ⟨0⟩] } (failingWorld (.missingKey "a")) _
      rfl rfl ⟨.function ⟨0⟩, _, rfl, rfl⟩⟩

/-- A value that fails with a miss of its own name is taken for a name that is missing: the choice
goes on to what follows otherwise, and the attribute is absent. -/
theorem failingHost_miss_of_own_name :
    (∃ s', (failingHost.dispatch 2).FailsInvoked "a"
      ⟨failingWorld (.missingKey "a"), { layers := [.mapping ⟨0⟩] }⟩ (.missingKey "a") s') ∧
    ((failingHost.dispatch 2).renderAll failingChoice
      ⟨failingWorld (.missingKey "a"), { layers := [.mapping ⟨0⟩] }⟩).map (·.1) = some (.ok "no") ∧
    ((failingHost.dispatch 3).readAttr (.object ⟨0⟩) "a" (failingWorld (.missingKey "a"))).map
      (·.1) = some (.error (.attributeNotFound "AttributeView" "a")) :=
  ⟨⟨_, .function ⟨0⟩, _, rfl, rfl⟩, rfl, rfl⟩

end LayeredScope
