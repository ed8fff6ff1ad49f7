import LayeredScope.Proofs.Misses
import LayeredScope.Proofs.Restoration
import LayeredScope.Proofs.Upholding

/-!
# What a branch makes of its condition

A choice keeps what the names of its conditions stand for in a mapping of its own, on top of the
stack, so that a branch finds the value that was tested and does not look the name up in the layers
below. But it finds it by a look-up like any other, and a look-up invokes what can be invoked. So
the value that was kept is inserted as it is only if there is nothing left to invoke in it.

* `World.isHooked` — a value answers look-ups for itself.
* `Session.Shows` — the newest layer is the mapping of a choice, and binds the name to the value.
* `Dispatch.insert_shown` — inserting the name treats the value once more as any value
  that is found.
* `Dispatch.branch_shows` — the mapping shows the value throughout the branch, where the code of the
  host leaves the layers and the mapping alone.
* `Host.kept_condition` — **a branch inserts the value of its condition without invoking anything if
  look-ups leave that value as it is**; otherwise it is invoked a second time.
-/

namespace LayeredScope

variable {κ σ : Type}

/-- Does the value answer look-ups for itself? -/
def World.isHooked (w : World κ σ) : Value → Bool
  | .object id =>
    match w.object id with
    | .host { hook := some _, .. } => true
    | _ => false
  | _ => false

/-- The newest layer is the mapping, and it binds the name to the value. -/
structure Session.Shows (kept : MapId) (name : String) (v : Value) (s : Session κ σ) : Prop where
  top : ∃ older, s.stack.layers = .mapping kept :: older
  bound : (s.world.entries kept).get? name = some v

/-- The session in which a branch begins: its condition is bound in the mapping of the choice. -/
def Session.keep (s : Session κ σ) (kept : MapId) (name : String) (v : Value) : Session κ σ :=
  { s with world := s.world.insert kept name v }

/-- The session with an event noted. -/
def Session.noting (s : Session κ σ) (event : Event) : Session κ σ :=
  { s with world := s.world.record event }

namespace Dispatch

variable {d : Dispatch κ σ} {kept : MapId} {name : String} {v : Value}

/-! ## Inserting the name -/

/-- What a look-up makes of a value without a hook, by how the value is treated. -/
theorem invoke_apply (v : Value) (s : Session κ σ) :
    d.invoke v s =
      match s.world.treatment v with
      | .inert => some (.ok v, s)
      | .template => d.apply v none (s.noting (.applied v))
      | .plain => (d.call v).onWorld (s.noting (.called v)) := by
  show (Run.gets _ >>= _) s = _
  rw [Run.bind_ok (Run.gets_apply _ s)]
  cases s.world.treatment v <;> rfl

/-- The search ends in the newest layer. -/
theorem fetch_shown {s : Session κ σ} (h : s.Shows kept name v) :
    d.fetch s.stack name s.world =
      some (.ok v, (s.noting (.searched (.mapping kept) name)).world) := by
  obtain ⟨older, hlayers⟩ := h.top
  have hnote : (note (.searched (.mapping kept) name) : Run (World κ σ) Unit) s.world =
      some (.ok (), (s.noting (.searched (.mapping kept) name)).world) := rfl
  have hask : d.askLayer (.mapping kept) name (s.noting (.searched (.mapping kept) name)).world =
      some (.ok (some v), (s.noting (.searched (.mapping kept) name)).world) := by
    rw [← h.bound]
    rfl
  have hsearch : d.search name s.stack.layers s.world =
      some (.ok (some v), (s.noting (.searched (.mapping kept) name)).world) := by
    rw [hlayers]
    exact (Run.bind_ok hnote).trans (Run.bind_ok hask)
  exact Run.bind_ok hsearch

/-- **Inserting the name treats the value that was kept as any value that is found.** -/
theorem insert_shown (d : Dispatch κ σ) {s : Session κ σ} (h : s.Shows kept name v)
    (out : String) :
    d.renderBlock out (.insert (.name name)) s =
      (d.onAccess v >>= fun answer => Run.gets fun s => out ++ s.world.display answer)
        (s.noting (.searched (.mapping kept) name)) := by
  have hfetched : (d.fetch s.stack name).onWorld s =
      some (.ok v, s.noting (.searched (.mapping kept) name)) := Run.onWorld_eq (fetch_shown h)
  show (((d.fetch s.stack name).onWorld >>= d.onAccess) >>= _) s = _
  rw [bind_assoc, Run.bind_ok hfetched]

end Dispatch

/-- A value without a hook is treated by what it is. -/
theorem Host.onAccess_hookless (h : Host κ σ) (fuel : Nat) {v : Value} {s : Session κ σ}
    (hv : s.world.isHooked v = false) :
    (h.dispatch (fuel + 1)).onAccess v s = (h.dispatch (fuel + 1)).invoke v s := by
  cases v with
  | object id =>
    have hhook : (h.dispatch (fuel + 1)).hook id s = some (.ok none, s) := by
      show Answer.hook h (h.dispatch fuel) id s = _
      simp only [Answer.hook, Run.bind_ok (Run.get_apply s)]
      simp only [World.isHooked] at hv
      cases hobject : s.world.object id with
      | host o =>
        obtain ⟨_, _, _, _, _, hook⟩ := o
        cases hook with
        | none => rfl
        | some code => rw [hobject] at hv; cases hv
      | view | bundle | template => rfl
    exact Run.bind_ok hhook
  | _ => rfl

namespace Dispatch

variable {d : Dispatch κ σ} {kept : MapId} {name : String} {v : Value}

/-! ## The branch -/

namespace PassesOver

variable {before : List (Expr κ × List (Block κ))} {s s' : Session κ σ}

theorem layers_eq (hd : d.KeepsLayers) (h : d.PassesOver kept before s s') :
    s'.stack.layers = s.stack.layers := by
  induction h with
  | nil s => rfl
  | cons held _ ih => exact ih.trans (hd.holds kept _ _ _ _ held)

/-- Conditions preserve what the calls preserve, if the mapping of the choice may be written. -/
theorem meets {P : World κ σ → Prop} (hP : World.Stable P) (hd : d.Upholds P)
    (hkept : ∀ w key value, P w → P (w.insert kept key value))
    (h : d.PassesOver kept before s s') (hs : s.Meets P) : s'.Meets P := by
  induction h with
  | nil s => exact hs
  | cons held _ ih => exact ih (hd.holds hP hkept _ _ _ _ hs held)

end PassesOver

/-- Calls that leave the entries of a mapping alone leave the mapping in place. -/
theorem Upholds.issued (h : ∀ entries, d.Upholds (World.Binds kept entries)) :
    d.Upholds (World.Issued kept) where
  readAttr v name w r w' hw hx := ((h _).readAttr v name w r w' hw.binds hx).1
  readItem id key w r w' hw hx := ((h _).readItem id key w r w' hw.binds hx).1
  call v w r w' hw hx := ((h _).call v w r w' hw.binds hx).1
  apply v client s r s' hs hx :=
    ((h _).apply v client s r s' (World.Issued.binds hs) hx).1
  hook id s r s' hs hx := ((h _).hook id s r s' (World.Issued.binds hs) hx).1
  access code v name w r w' hw hx := ((h _).access code v name w r w' hw.binds hx).1
  evaluate code s r s' hs hx := ((h _).evaluate code s r s' (World.Issued.binds hs) hx).1

section

variable {s s₁ s₂ s₃ : Session κ σ} {before : List (Expr κ × List (Block κ))}
  {between : List (Block κ)} {out out' : String}

/-- **The mapping of a choice shows the value of the condition throughout the branch.** From the
choice on the layers are left alone, so the mapping is the newest of them whenever the branch comes
to a block of its own; and it is written by the conditions of this choice only. -/
theorem branch_shows (hlayers : d.KeepsLayers)
    (hspares : ∀ entries, d.Upholds (World.Binds (s.world.newMap ∅).1 entries))
    (hpassed : d.PassesOver (s.world.newMap ∅).1 before s.enterChoice s₁)
    (hfound : d.lookup name true s₁ = some (.ok v, s₂))
    (hbetween : d.renderOnto out between (s₂.keep (s.world.newMap ∅).1 name v) =
      some (.ok out', s₃)) :
    s₃.Shows (s.world.newMap ∅).1 name v := by
  constructor
  · refine ⟨s.stack.layers, ?_⟩
    have hbody : s₃.stack.layers = s₂.stack.layers :=
      hlayers.renderOnto out between (s₂.keep (s.world.newMap ∅).1 name v) _ s₃ hbetween
    rw [hbody, hlayers.lookup name true _ _ _ hfound, hpassed.layers_eq hlayers]
    rfl
  · have hentered : s.enterChoice.Meets (World.Issued (s.world.newMap ∅).1) := by
      simp [Session.Meets, Session.enterChoice, World.Issued, World.newMap]
    have hissued : s₁.Meets (World.Issued (s.world.newMap ∅).1) :=
      hpassed.meets (.issued _) (.issued hspares) (fun _ _ _ hw => hw.insert _ _ _) hentered
    have hbinds := (hspares _).lookup (.binds _ _) name true s₁ _ s₂ (World.Issued.binds hissued)
      hfound
    have hkept := (hspares _).renderOnto (.binds _ _) out between
      (s₂.keep (s.world.newMap ∅).1 name v) _ s₃ (World.Binds.insert hbinds name v) hbetween
    rw [hkept.2, Entries.get?_insert, if_pos rfl]

/-- A choice goes on in the branch whose condition holds, and its mapping is taken off at
the end. -/
theorem renderBlock_branch (hpassed : d.PassesOver (s.world.newMap ∅).1 before s.enterChoice s₁)
    (hfound : d.lookup name true s₁ = some (.ok v, s₂)) (htruthy : s₂.world.isTruthy v = true)
    (hbetween : d.renderOnto out between (s₂.keep (s.world.newMap ∅).1 name v) =
      some (.ok out', s₃)) {rest : List (Block κ)} {r : Except Failure String}
    {s₄ : Session κ σ} (hrest : d.renderOnto out' rest s₃ = some (r, s₄))
    (after : List (Expr κ × List (Block κ))) (otherwise : Option (List (Block κ))) :
    d.renderBlock out (.choose (before ++ (.name name, between ++ rest) :: after) otherwise) s =
      some (r, ⟨s₄.world, Guard.close ⟨1, none⟩ s₄.stack⟩) := by
  have hheld : d.holds (s.world.newMap ∅).1 (.name name) s₁ =
      some (.ok true, s₂.keep (s.world.newMap ∅).1 name v) := by
    rw [holds_name_apply, hfound]
    dsimp only
    rw [htruthy]
    rfl
  have hbody : d.renderOnto out (between ++ rest) (s₂.keep (s.world.newMap ∅).1 name v) =
      some (r, s₄) := by
    rw [renderOnto_append, Run.bind_ok hbetween, hrest]
  refine renderBlock_choose ?_
  rw [hpassed.renderBranches_eq, ← hbody]
  exact Run.bind_ok hheld

end

end Dispatch

/-- The code of the host leaves the entries of the mapping alone. -/
def Host.Spares (h : Host κ σ) (m : MapId) : Prop := ∀ entries, h.Upholds (World.Binds m entries)

/-! ## Main theorem -/

/-- **What a branch makes of its condition.** Let the newest layer be the mapping of a choice that
binds the name of a condition to the value that was tested. Inserting the name searches no other
layer, and does with the value what every look-up does. If the value has no hook, then either it
cannot be called, and its text is inserted and nothing invoked; or it is invoked, a second time.

The layer and the binding stay so throughout the branch, whatever blocks are rendered in between, if
the code of the host leaves the layers and that mapping alone. -/
theorem Host.kept_condition (h : Host κ σ) (fuel : Nat) (name : String) (v : Value) :
    (∀ kept s out, s.Shows kept name v →
      (h.dispatch (fuel + 1)).renderBlock out (.insert (.name name)) s =
        ((h.dispatch (fuel + 1)).onAccess v >>= fun answer =>
          Run.gets fun s => out ++ s.world.display answer)
            (s.noting (.searched (.mapping kept) name)) ∧
      (s.world.isHooked v = false →
        (h.dispatch (fuel + 1)).renderBlock out (.insert (.name name)) s =
          match s.world.treatment v with
          | .inert =>
            some (.ok (out ++ s.world.display v), s.noting (.searched (.mapping kept) name))
          | .template =>
            ((h.dispatch (fuel + 1)).apply v none >>= fun answer =>
              Run.gets fun s => out ++ s.world.display answer)
                ((s.noting (.searched (.mapping kept) name)).noting (.applied v))
          | .plain =>
            (((h.dispatch (fuel + 1)).call v).onWorld >>= fun answer =>
              Run.gets fun s => out ++ s.world.display answer)
                ((s.noting (.searched (.mapping kept) name)).noting (.called v)))) ∧
    ∀ s s₁ s₂ s₃ before between out out', h.KeepsLayers → h.Spares (s.world.newMap ∅).1 →
      (h.dispatch (fuel + 1)).PassesOver (s.world.newMap ∅).1 before s.enterChoice s₁ →
      (h.dispatch (fuel + 1)).lookup name true s₁ = some (.ok v, s₂) →
      s₂.world.isTruthy v = true →
      (h.dispatch (fuel + 1)).renderOnto out between (s₂.keep (s.world.newMap ∅).1 name v) =
        some (.ok out', s₃) →
      s₃.Shows (s.world.newMap ∅).1 name v ∧
      ∀ rest r s₄ after otherwise,
        (h.dispatch (fuel + 1)).renderOnto out' rest s₃ = some (r, s₄) →
        (h.dispatch (fuel + 1)).renderBlock out
          (.choose (before ++ (.name name, between ++ rest) :: after) otherwise) s =
            some (r, ⟨s₄.world, Guard.close ⟨1, none⟩ s₄.stack⟩) := by
  refine ⟨fun kept s out hs => ⟨(h.dispatch (fuel + 1)).insert_shown hs out, fun hv => ?_⟩, ?_⟩
  · have haccess := h.onAccess_hookless fuel (s := s.noting (.searched (.mapping kept) name)) hv
    rw [Dispatch.invoke_apply] at haccess
    rw [(h.dispatch (fuel + 1)).insert_shown hs out, Run.bind_apply, haccess]
    have htreatment : (s.noting (.searched (.mapping kept) name)).world.treatment v =
        s.world.treatment v := rfl
    rw [htreatment]
    cases s.world.treatment v with
    | inert =>
      show some (Except.ok (out ++ (s.world.record _).display v), _) = _
      rw [World.display_record]
    | template => rfl
    | plain => rfl
  · intro s s₁ s₂ s₃ before between out out' hlayers hspares hpassed hfound htruthy hbetween
    have hkeeps := Host.dispatch_keepsLayers hlayers (fuel + 1)
    have hupholds (entries : Entries Value) :=
      Host.dispatch_upholds (.binds _ entries) (hspares entries) (fuel + 1)
    exact ⟨Dispatch.branch_shows hkeeps hupholds hpassed hfound hbetween,
      fun rest r s₄ after otherwise hrest =>
        Dispatch.renderBlock_branch hpassed hfound htruthy hbetween hrest after otherwise⟩

/-- A host whose functions answer a value, which may be another function. -/
def echoHost : Host Value Unit where
  readAttr _ _ := .answer .none
  readItem _ _ := .answer none
  call v := .answer v
  apply _ _ := .answer .none
  hook _ := .answer none
  access _ _ _ := .answer .none
  evaluate v := .answer v

/-- A name that stands for a function with this answer, beside a function that answers a text. -/
def echoWorld (answer : Value) : World Value Unit where
  maps := #[.ofList [("f", .function ⟨0⟩)]]
  functions := #[⟨"f", answer⟩, ⟨"g", .str "again"⟩]
  host := ()

theorem echoHost_keepsLayers : echoHost.KeepsLayers := by
  refine ⟨fun _ _ s _ _ h => ?_, fun _ _ _ s _ _ h => ?_, fun _ _ s _ _ h => ?_⟩ <;>
  · cases h
    rfl

theorem echoHost_spares (m : MapId) : echoHost.Spares m := by
  refine fun entries => ⟨?_, ?_, ?_, ?_, ?_, ?_, ?_⟩ <;> intros <;> intro a r b ha h <;>
  · cases h
    exact ha

/-- The branch inserts the text that its condition was answered with: the search for the name is all
that is noted of it, so the function is not called again. -/
theorem echoHost_kept_condition :
    echoHost.KeepsLayers ∧ echoHost.Spares ⟨1⟩ ∧
    ∃ s stack, s.Shows ⟨1⟩ "f" (.str "ada") ∧
      (echoHost.dispatch 1).renderBlock "dear " (.insert (.name "f")) s =
        some (.ok "dear ada", s.noting (.searched (.mapping ⟨1⟩) "f")) ∧
      (echoHost.dispatch 1).renderBlock "" (.choose
          [(.name "f", [.text "dear ", .insert (.name "f")])] none)
        ⟨echoWorld (.str "ada"), { layers := [.mapping ⟨0⟩] }⟩ =
          some (.ok "dear ada", ⟨(s.noting (.searched (.mapping ⟨1⟩) "f")).world, stack⟩) := by
  have hkept := echoHost.kept_condition 0 "f" (.str "ada")
  have hfound : ∃ s₂, (echoHost.dispatch 1).lookup "f" true
      (Session.enterChoice ⟨echoWorld (.str "ada"), { layers := [.mapping ⟨0⟩] }⟩) =
        some (.ok (.str "ada"), s₂) := ⟨_, rfl⟩
  obtain ⟨s₂, hs₂⟩ := hfound
  obtain ⟨hshows, hchoice⟩ := hkept.2 _ _ s₂ (s₂.keep ⟨1⟩ "f" (.str "ada")) [] [.text "dear "] ""
    "dear " echoHost_keepsLayers (echoHost_spares _) (.nil _) hs₂ rfl rfl
  have hinsert := (hkept.1 ⟨1⟩ _ "dear " hshows).2 rfl
  have htext : (s₂.keep ⟨1⟩ "f" (.str "ada")).world.display (.str "ada") = "ada" :=
    World.display_str _ "ada"
  change _ = some (Except.ok ("dear " ++ World.display _ _), _) at hinsert
  rw [htext] at hinsert
  exact ⟨echoHost_keepsLayers, echoHost_spares _, s₂.keep ⟨1⟩ "f" (.str "ada"), _, hshows, hinsert,
    hchoice [.insert (.name "f")] _ _ [] none (Run.bind_ok hinsert)⟩

/-- A function that is answered with another one: the branch calls that one, too, as the last thing
that is noted, and inserts its answer in place of the text of the value that was tested. -/
theorem echoHost_invoked_again :
    (∃ s₂, (echoHost.dispatch 1).lookup "f" true
        (Session.enterChoice ⟨echoWorld (.function ⟨1⟩), { layers := [.mapping ⟨0⟩] }⟩) =
          some (.ok (.function ⟨1⟩), s₂) ∧
      s₂.world.isTruthy (.function ⟨1⟩) = true ∧
      s₂.world.display (.function ⟨1⟩) = "<function g>") ∧
    ((echoHost.dispatch 1).renderAll [.choose [(.name "f", [.insert (.name "f")])] none]
      ⟨echoWorld (.function ⟨1⟩), { layers := [.mapping ⟨0⟩] }⟩).map
        (fun p => (p.1, p.2.world.journal.head?)) =
          some (.ok "again", some (.called (.function ⟨1⟩))) := by
  refine ⟨⟨_, rfl, rfl, ?_⟩, ?_⟩
  · simp only [World.display, World.displayIn]
    rfl
  · -- the first function is called for the condition, and its answer for the name in the branch
    have hrun : (echoHost.dispatch 1).renderAll
        [.choose [(.name "f", [.insert (.name "f")])] none]
        ⟨echoWorld (.function ⟨1⟩), { layers := [.mapping ⟨0⟩] }⟩ =
          some (.ok ("" ++ World.display _ (.str "again")), _) := rfl
    rw [hrun, World.display_str]
    rfl

end LayeredScope
