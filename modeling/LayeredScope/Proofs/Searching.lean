import LayeredScope.Host.Answer

/-!
# The first layer that does not miss

A search puts the key to one layer after the other, from the newest to the oldest. What a layer
does when it is asked is its own business: it may run code of the host, and leave the world
different from what it was. So the question is not only what is answered, but also who was asked.

* `Dispatch.question` — the key is put to one layer.
* `Dispatch.Misses` — some layers are asked in order, each once, and all of them miss.
* `Dispatch.Decides` — the first layer that does not miss decides, and nobody is asked after it.
* `Dispatch.Independent` — no layer answers differently because others were asked before it.
* `Dispatch.first_answer` — **a search ends as the first layer that does not miss says**, and what
  is invoked afterwards has no part in the search.
-/

namespace LayeredScope

variable {κ σ : Type}

namespace Dispatch

variable (d : Dispatch κ σ)

/-- Put a key to one layer. -/
def question (layer : Layer) (key : String) : Run (World κ σ) (Option Value) := do
  note (.searched layer key)
  d.askLayer layer key

/-- The layers are asked one after the other, each once, and all of them miss. -/
inductive Misses (key : String) : List Layer → World κ σ → World κ σ → Prop
  | nil (w : World κ σ) : Misses key [] w w
  | cons {layer : Layer} {older : List Layer} {w w₁ w₂ : World κ σ}
      (missed : d.question layer key w = some (.ok none, w₁)) (rest : Misses key older w₁ w₂) :
      Misses key (layer :: older) w w₂

/-- The layers above one of them miss, and that one finds a value or fails. The layers below it are
not asked: the world is left as its answer leaves it. -/
def Decides (key : String) (layers : List Layer) (w : World κ σ) (r : Except Failure Value)
    (w' : World κ σ) : Prop :=
  ∃ newer layer older w₁, layers = newer ++ layer :: older ∧ d.Misses key newer w w₁ ∧
    ((∃ v, d.question layer key w₁ = some (.ok (some v), w') ∧ r = .ok v) ∨
      ∃ e, d.question layer key w₁ = some (.error e, w') ∧ r = .error e)

/-- The worlds that asking some of the layers can lead to. -/
inductive Asked (key : String) (layers : List Layer) (w : World κ σ) : World κ σ → Prop
  | refl : Asked key layers w w
  | step {layer : Layer} {r : Except Failure (Option Value)} {w₁ w₂ : World κ σ}
      (before : Asked key layers w w₁) (mem : layer ∈ layers)
      (answer : d.question layer key w₁ = some (r, w₂)) : Asked key layers w w₂

/-- What each layer answers is the same whichever of them were asked before. -/
def Independent (key : String) (layers : List Layer) (w : World κ σ) : Prop :=
  ∀ layer ∈ layers, ∀ w', d.Asked key layers w w' →
    (d.question layer key w').map (·.1) = (d.question layer key w).map (·.1)

variable {d}

/-! ## One question at a time -/

/-- A search asks the newest layer, and goes on only if that one misses. -/
theorem search_cons (key : String) (layer : Layer) (older : List Layer) (w : World κ σ) :
    d.search key (layer :: older) w =
      match d.question layer key w with
      | none => none
      | some (.ok (some v), w₁) => some (.ok (some v), w₁)
      | some (.ok none, w₁) => d.search key older w₁
      | some (.error e, w₁) => some (.error e, w₁) := by
  show (d.question layer key >>= _) w = _
  rw [Run.bind_apply]
  cases d.question layer key w with
  | none => rfl
  | some p =>
    obtain ⟨r, w₁⟩ := p
    cases r with
    | error e => rfl
    | ok found => cases found <;> rfl

/-- Layers that miss make no difference but for what they did when they were asked. -/
theorem Misses.search_append {key : String} {newer : List Layer} {w w₁ : World κ σ}
    (h : d.Misses key newer w w₁) (older : List Layer) :
    d.search key (newer ++ older) w = d.search key older w₁ := by
  induction h with
  | nil => rfl
  | cons missed rest ih =>
    rw [List.cons_append, search_cons, missed]
    exact ih

/-- A search that ends has asked layers that miss, and then either none is left or one decided. -/
theorem search_cases {key : String} {layers : List Layer} {w w' : World κ σ}
    {r : Except Failure (Option Value)} (h : d.search key layers w = some (r, w')) :
    (r = .ok none ∧ d.Misses key layers w w') ∨
      ∃ answer, d.Decides key layers w answer w' ∧ r = answer.map some := by
  induction layers generalizing w with
  | nil =>
    cases h
    exact .inl ⟨rfl, .nil w'⟩
  | cons layer older ih =>
    rw [search_cons] at h
    cases hq : d.question layer key w with
    | none => rw [hq] at h; cases h
    | some p =>
      obtain ⟨answer, w₁⟩ := p
      rw [hq] at h
      cases answer with
      | error e =>
        cases h
        exact .inr ⟨.error e, ⟨[], layer, older, w, rfl, .nil w, .inr ⟨e, hq, rfl⟩⟩, rfl⟩
      | ok found =>
        cases found with
        | some v =>
          cases h
          exact .inr ⟨.ok v, ⟨[], layer, older, w, rfl, .nil w, .inl ⟨v, hq, rfl⟩⟩, rfl⟩
        | none =>
          rcases ih h with ⟨hr, hmisses⟩ | ⟨answer, hdecides, hr⟩
          · exact .inl ⟨hr, .cons hq hmisses⟩
          · obtain ⟨newer, decider, below, w₂, hlayers, hmisses, hanswer⟩ := hdecides
            refine .inr ⟨answer, ⟨layer :: newer, decider, below, w₂, ?_, .cons hq hmisses,
              hanswer⟩, hr⟩
            rw [hlayers, List.cons_append]

theorem Misses.search_eq {key : String} {layers : List Layer} {w w' : World κ σ}
    (h : d.Misses key layers w w') : d.search key layers w = some (.ok none, w') := by
  have hsearch := h.search_append []
  rw [List.append_nil] at hsearch
  exact hsearch

theorem Decides.search_eq {key : String} {layers : List Layer} {w w' : World κ σ}
    {answer : Except Failure Value} (h : d.Decides key layers w answer w') :
    d.search key layers w = some (answer.map some, w') := by
  obtain ⟨newer, layer, older, w₁, rfl, hmisses, hanswer⟩ := h
  rw [hmisses.search_append, search_cons]
  rcases hanswer with ⟨v, hq, rfl⟩ | ⟨e, hq, rfl⟩
  · rw [hq]
    rfl
  · rw [hq]
    rfl

/-- **What a stack holds under a key is what the first layer that does not miss says.** -/
theorem fetch_iff {s : Stack κ} {key : String} {w w' : World κ σ} {r : Except Failure Value} :
    d.fetch s key w = some (r, w') ↔
      d.Decides key s.layers w r w' ∨
        d.Misses key s.layers w w' ∧ r = .error (.missingKey key) := by
  have hfetch : d.fetch s key w =
      (d.search key s.layers >>= fun answer => Run.ofExcept (found key answer)) w := rfl
  constructor
  · intro h
    rw [hfetch, Run.bind_apply] at h
    cases hs : d.search key s.layers w with
    | none => rw [hs] at h; cases h
    | some p =>
      obtain ⟨outcome, w₁⟩ := p
      rw [hs] at h
      rcases search_cases hs with ⟨rfl, hmisses⟩ | ⟨answer, hdecides, rfl⟩
      · cases h
        exact .inr ⟨hmisses, rfl⟩
      · cases answer with
        | ok v =>
          cases h
          exact .inl hdecides
        | error e =>
          cases h
          exact .inl hdecides
  · rintro (hdecides | ⟨hmisses, rfl⟩)
    · rw [hfetch]
      cases r with
      | ok v => exact Run.bind_ok hdecides.search_eq
      | error e => exact Run.bind_error hdecides.search_eq
    · rw [hfetch]
      exact Run.bind_ok hmisses.search_eq

/-! ## Layers that do not disturb each other -/

/-- It is enough that each layer has one answer for as long as some condition lasts, and that asking
does not end it. -/
theorem Independent.of_steady {key : String} {layers : List Layer} {w : World κ σ}
    {P : World κ σ → Prop} (answer : Layer → Except Failure (Option Value)) (hw : P w)
    (h : ∀ layer ∈ layers, ∀ w₁, P w₁ →
      ∃ w₂, d.question layer key w₁ = some (answer layer, w₂) ∧ P w₂) :
    d.Independent key layers w := by
  have hasked : ∀ w', d.Asked key layers w w' → P w' := by
    intro w' h'
    induction h' with
    | refl => exact hw
    | step before mem hq ih =>
      obtain ⟨w₂, hanswer, hw₂⟩ := h _ mem _ ih
      rw [hanswer] at hq
      cases hq
      exact hw₂
  intro layer hmem w' hw'
  obtain ⟨_, hlater, -⟩ := h layer hmem w' (hasked w' hw')
  obtain ⟨_, hnow, -⟩ := h layer hmem w hw
  rw [hlater, hnow]
  rfl

/-- Then a search ends the same whichever layers were asked before it. -/
theorem Independent.search_outcome {key : String} {all layers : List Layer} {w : World κ σ}
    (h : d.Independent key all w) (hsub : ∀ layer ∈ layers, layer ∈ all) {w₁ w₂ : World κ σ}
    (h₁ : d.Asked key all w w₁) (h₂ : d.Asked key all w w₂) :
    (d.search key layers w₁).map (·.1) = (d.search key layers w₂).map (·.1) := by
  induction layers generalizing w₁ w₂ with
  | nil => rfl
  | cons layer older ih =>
    have hmem := hsub layer List.mem_cons_self
    have hanswers := (h layer hmem w₁ h₁).trans (h layer hmem w₂ h₂).symm
    rw [search_cons, search_cons]
    cases hq₁ : d.question layer key w₁ with
    | none =>
      cases hq₂ : d.question layer key w₂ with
      | none => rfl
      | some p => rw [hq₁, hq₂] at hanswers; cases hanswers
    | some p =>
      cases hq₂ : d.question layer key w₂ with
      | none => rw [hq₁, hq₂] at hanswers; cases hanswers
      | some q =>
        obtain ⟨r, w₁'⟩ := p
        obtain ⟨r', w₂'⟩ := q
        rw [hq₁, hq₂] at hanswers
        cases hanswers
        cases r with
        | error e => rfl
        | ok answer =>
          cases answer with
          | some v => rfl
          | none =>
            exact ih (fun l hl => hsub l (List.mem_cons_of_mem _ hl)) (h₁.step hmem hq₁)
              (h₂.step hmem hq₂)

/-- The outcome of a search as a value or a failure. -/
theorem fetch_outcome (s : Stack κ) (key : String) (w : World κ σ) :
    (d.fetch s key w).map (·.1) =
      ((d.search key s.layers w).map (·.1)).map fun r => r.bind (found key) := by
  show ((d.search key s.layers >>= fun answer => Run.ofExcept (found key answer)) w).map _ = _
  rw [Run.bind_apply]
  cases d.search key s.layers w with
  | none => rfl
  | some p =>
    obtain ⟨r, w₁⟩ := p
    cases r <;> rfl

end Dispatch

/-- A view that is put a key as a layer is read. -/
theorem Host.question_view (h : Host κ σ) (fuel : Nat) {view : ObjectId} {v : ObjectView κ}
    {key : String} {w : World κ σ} (hview : w.view? view = some v) :
    (h.dispatch (fuel + 1)).question (.object view) key w =
      (h.dispatch fuel).viewGet view key (w.record (.searched (.object view) key)) := by
  have hobject : (w.record (.searched (.object view) key)).object view = .view v :=
    World.view?_eq_some.mp hview
  show Answer.readItem h (h.dispatch fuel) view key _ = _
  simp only [Answer.readItem, Run.bind_ok (Run.get_apply _), hobject]

/-! ## Main theorem -/

/-- **A search ends as the first layer that does not miss says.** The layers are asked from the
newest to the oldest, each once, and none after the first that finds a value or fails, whatever the
layers do when they are asked; if all of them miss, the key is missing. A look-up without invoking
is the search; with invoking it ends as the invoked value does, and its failures, misses included,
are returned as they are with no further question to a layer. If the layers do not disturb each
other, a layer that misses can be pushed, and any layer can be pushed and popped again, asked or
not, without a difference to the outcome. -/
theorem Dispatch.first_answer (d : Dispatch κ σ) (s : Stack κ) (key : String) :
    (∀ w r w', d.fetch s key w = some (r, w') ↔
      d.Decides key s.layers w r w' ∨
        d.Misses key s.layers w w' ∧ r = .error (.missingKey key)) ∧
    (∀ w, d.lookup key false ⟨w, s⟩ = (d.fetch s key).onWorld ⟨w, s⟩) ∧
    (∀ w w₁,
      (∀ v, d.fetch s key w = some (.ok v, w₁) →
        d.lookup key true ⟨w, s⟩ = d.onAccess v ⟨w₁, s⟩) ∧
      ∀ e, d.fetch s key w = some (.error e, w₁) →
        d.lookup key true ⟨w, s⟩ = some (.error e, ⟨w₁, s⟩)) ∧
    ∀ w layer, d.Independent key (layer :: s.layers) w →
      ((∃ w₁, d.question layer key w = some (.ok none, w₁)) →
        (d.fetch (s.push layer) key w).map (·.1) = (d.fetch s key w).map (·.1)) ∧
      (s.push layer).pop 1 = .ok ([layer], s) ∧ (s.push layer).popTop = .ok (layer, s) ∧
      ∀ w', d.Asked key (layer :: s.layers) w w' →
        (d.fetch s key w').map (·.1) = (d.fetch s key w).map (·.1) := by
  refine ⟨fun w r w' => Dispatch.fetch_iff, fun w => ?_, fun w w₁ => ⟨?_, ?_⟩, ?_⟩
  · show ((d.fetch s key).onWorld >>= pure) ⟨w, s⟩ = _
    rw [bind_pure]
  · intro v hv
    have hfetched : (d.fetch s key).onWorld ⟨w, s⟩ = some (.ok v, ⟨w₁, s⟩) := by
      rw [Run.onWorld_apply, hv]
    show ((d.fetch s key).onWorld >>= d.onAccess) ⟨w, s⟩ = _
    rw [Run.bind_ok hfetched]
  · intro e he
    have hfetched : (d.fetch s key).onWorld ⟨w, s⟩ = some (.error e, ⟨w₁, s⟩) := by
      rw [Run.onWorld_apply, he]
    show ((d.fetch s key).onWorld >>= d.onAccess) ⟨w, s⟩ = _
    rw [Run.bind_error hfetched]
  · intro w layer hindependent
    have hbelow : ∀ l ∈ s.layers, l ∈ layer :: s.layers := fun l hl => List.mem_cons_of_mem _ hl
    refine ⟨?_, ?_, rfl, ?_⟩
    · rintro ⟨w₁, hmissed⟩
      -- the pushed layer is asked first, and that does not change what the others answer
      have hpushed : d.search key (s.push layer).layers w = d.search key s.layers w₁ := by
        show d.search key (layer :: s.layers) w = _
        rw [Dispatch.search_cons, hmissed]
      have hsame := hindependent.search_outcome hbelow
        (Dispatch.Asked.refl.step List.mem_cons_self hmissed) .refl
      rw [Dispatch.fetch_outcome, Dispatch.fetch_outcome, hpushed, hsame]
    · rw [Stack.pop_of_le (Nat.le_add_left 1 s.depth)]
      rfl
    · intro w' hasked
      rw [Dispatch.fetch_outcome, Dispatch.fetch_outcome,
        hindependent.search_outcome hbelow hasked .refl]

/-- A host whose objects answer, as layers, what their code says. -/
def answeringHost : Host (Except Failure (Option Value)) Unit where
  readAttr _ _ := .answer .none
  readItem code _ := .ofExcept code
  call _ := .answer .none
  apply _ _ := .answer .none
  hook _ := .answer none
  access _ _ _ := .answer .none
  evaluate _ := .answer .none

/-- A mapping with an entry `a`, an object that has nothing, and one that fails with a miss of
another key. -/
def mixedWorld : World (Except Failure (Option Value)) Unit where
  maps := #[.ofList [("a", .int 1)]]
  objects := #[.host { typeName := "empty", readItem := some (.ok none) },
    .host { typeName := "broken", readItem := some (.error (.missingKey "b")) }]
  host := ()

/-- The failing object lies over the mapping. -/
def mixedStack : Stack (Except Failure (Option Value)) := { layers := [.object ⟨1⟩, .mapping ⟨0⟩] }

/-- What they answer. -/
def mixedAnswers : Layer → Except Failure (Option Value)
  | .mapping _ => .ok (some (.int 1))
  | .object id => if id.index = 0 then .ok none else .error (.missingKey "b")
  | .sealed _ => .ok none

/-- Their answers depend on nothing that asking changes. -/
theorem mixedWorld_independent :
    (answeringHost.dispatch 2).Independent "a" (.object ⟨0⟩ :: mixedStack.layers) mixedWorld := by
  refine Dispatch.Independent.of_steady
    (P := fun w => ∃ events, w = { mixedWorld with journal := events }) mixedAnswers ⟨[], rfl⟩ ?_
  rintro layer hmem _ ⟨events, rfl⟩
  simp only [mixedStack, List.mem_cons, List.not_mem_nil, or_false] at hmem
  rcases hmem with rfl | rfl | rfl
  · exact ⟨_, rfl, _, rfl⟩
  · exact ⟨_, rfl, _, rfl⟩
  · exact ⟨_, rfl, _, rfl⟩

/-- The failure is the outcome, though the mapping below has the key and the object above misses. -/
theorem mixedWorld_first_answer :
    (answeringHost.dispatch 2).Independent "a" (.object ⟨0⟩ :: mixedStack.layers) mixedWorld ∧
    ((answeringHost.dispatch 2).fetch (mixedStack.push (.object ⟨0⟩)) "a" mixedWorld).map (·.1) =
      some (.error (.missingKey "b")) := by
  have hfirst := Dispatch.first_answer (answeringHost.dispatch 2) mixedStack "a"
  have hpushed := (hfirst.2.2.2 mixedWorld (.object ⟨0⟩) mixedWorld_independent).1 ⟨_, rfl⟩
  refine ⟨mixedWorld_independent, ?_⟩
  rw [hpushed]
  rfl

end LayeredScope
