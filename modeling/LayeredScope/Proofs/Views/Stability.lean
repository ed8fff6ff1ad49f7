import LayeredScope.Proofs.Views.Memory

/-!
# Keys that were found

A view that has found a visible key answers from its memory from then on. What it answers is what
the key was resolved to last; and that can change once more, if another read of the key had begun
before and ends later.

* `World.AnswersAtOnce` — after a key was found, every read of it that begins ends at once.
* `World.AnswersStay` — and with the same value, always.
* `Host.found_again` — **the former is so throughout every run, and the value is the same unless a
  read of the key was under way when it was found.**
* `askedWorld_changes` — the value is not always the same.
-/

namespace LayeredScope

variable {κ σ α : Type}

/-- After a key of a view was found, every later read of it is answered at once, with the same
value: the question and the answer stand next to each other in the journal. -/
def World.AnswersStay (w : World κ σ) (id : ObjectId) (key : String) : Prop :=
  ∀ value after before earlier,
    w.journal = after ++ .asked id key :: before ++ .answered id key (.ok (some value)) :: earlier →
    ∃ after', after = after' ++ [.answered id key (.ok (some value))]

/-- After a key of a view was found, every later read of it is answered at once. The value is the
same, unless a read of the key was under way at that moment and resolved it since. -/
structure World.AnswersAtOnce (w : World κ σ) (id : ObjectId) (key : String) : Prop where
  /-- Reads that have begun. -/
  begun : ∀ value after before earlier,
    w.journal = after ++ .asked id key :: before ++ .answered id key (.ok (some value)) :: earlier →
    ∃ after' value', after = after' ++ [.answered id key (.ok (some value'))] ∧
      (value' = value ∨ .resolved id key value' ∈ before ∧
        0 < Event.openReads id key (.answered id key (.ok (some value)) :: earlier))
  /-- A read that is about to begin: no call is made for it. -/
  next : ∀ value before earlier,
    w.journal = before ++ .answered id key (.ok (some value)) :: earlier →
    ∃ value', (∀ d : Dispatch κ σ, d.viewGet id key w = some (.ok (some value'),
        (w.record (.asked id key)).record (.answered id key (.ok (some value'))))) ∧
      (value' = value ∨ .resolved id key value' ∈ before ∧
        0 < Event.openReads id key (.answered id key (.ok (some value)) :: earlier))

namespace World

open Event

variable {h : Host κ σ} {w : World κ σ} {id : ObjectId} {v : ObjectView κ} {key : String}

namespace Told

/-- Once a key is known and no read of it is under way, it is not resolved any more: each read that
begins ends with the next event. -/
theorem not_resolved {later earlier : List Event} (ht : w.Told h (later ++ earlier))
    (hknown : (resolvedTo id key earlier).isSome) (hclosed : openReads id key earlier = 0) :
    (∀ value, .resolved id key value ∉ later) ∧
    (openReads id key (later ++ earlier) = 0 ∨
      ∃ before, later = .asked id key :: before ∧ openReads id key (before ++ earlier) = 0) := by
  induction later with
  | nil => exact ⟨fun _ => List.not_mem_nil, .inl hclosed⟩
  | cons e later ih =>
    cases ht with
    | cons told fits prompt =>
      obtain ⟨hnone, hstate⟩ := ih told
      rcases hstate with hzero | ⟨before, rfl, hzero⟩
      · -- no read is under way
        cases e with
        | asked i k =>
          refine ⟨fun value hmem => hnone value (List.mem_of_ne_of_mem (by rintro ⟨⟩) hmem), ?_⟩
          by_cases hsame : i = id ∧ k = key
          · obtain ⟨rfl, rfl⟩ := hsame
            exact .inr ⟨later, rfl, hzero⟩
          · refine .inl ?_
            simp only [List.cons_append, openReads, if_neg hsame]
            omega
        | resolved i k value =>
          have hother : ¬(i = id ∧ k = key) := by
            rintro ⟨rfl, rfl⟩
            obtain ⟨_, _, _, hopen, _⟩ := fits
            have hunder : 0 < openReads i k (later ++ earlier) := hopen
            omega
          refine ⟨fun value' hmem => ?_, .inl hzero⟩
          rcases List.mem_cons.mp hmem with hmem | hmem
          · cases hmem
            exact hother ⟨rfl, rfl⟩
          · exact hnone value' hmem
        | answered i k outcome =>
          refine ⟨fun value hmem => hnone value (List.mem_of_ne_of_mem (by rintro ⟨⟩) hmem),
            .inl ?_⟩
          have hother : ¬(i = id ∧ k = key) := by
            rintro ⟨rfl, rfl⟩
            obtain ⟨_, _, hopen, _⟩ := fits
            have hunder : 0 < openReads i k (later ++ earlier) := hopen
            omega
          simp only [List.cons_append, openReads, if_neg hother]
          omega
        | _ =>
          exact ⟨fun value hmem => hnone value (List.mem_of_ne_of_mem (by rintro ⟨⟩) hmem),
            .inl hzero⟩
      · -- the view has just been asked for the key, which is known
        obtain ⟨value, hvalue⟩ :=
          Option.isSome_iff_exists.mp (resolvedTo_append_isSome hknown before)
        have hanswer := prompt id key (before ++ earlier) value rfl hvalue
        subst hanswer
        refine ⟨fun value' hmem => hnone value' (List.mem_of_ne_of_mem (by rintro ⟨⟩) hmem),
          .inl ?_⟩
        simp only [List.cons_append, openReads, and_self, if_true]
        omega

/-- What is known of a key after it was found. -/
theorem known {before earlier : List Event} {value : Value}
    (ht : w.Told h (before ++ .answered id key (.ok (some value)) :: earlier))
    (hview : w.view? id = some v) (hkind : v.reserved.kindOf key = .visible) :
    ∃ value', resolvedTo id key (before ++ .answered id key (.ok (some value)) :: earlier) =
        some value' ∧
      (value' = value ∨ .resolved id key value' ∈ before ∧
        0 < openReads id key (.answered id key (.ok (some value)) :: earlier)) := by
  obtain ⟨v', hview', -, hfound, -⟩ := ht.at_event.2
  cases hview.symm.trans hview'
  have hvalue :
      resolvedTo id key (.answered id key (.ok (some value)) :: earlier) = some value := by
    rw [resolvedTo_cons (by nofun)]
    exact hfound value rfl hkind
  rcases resolvedTo_append before (.answered id key (.ok (some value)) :: earlier) with
    hsame | ⟨value', hmem, hvalue'⟩
  · exact ⟨value, hsame.trans hvalue, .inl rfl⟩
  · refine ⟨value', hvalue', .inr ⟨hmem, ?_⟩⟩
    have hnonneg := (ht.of_append).openReads_nonneg id key
    rcases Int.lt_or_eq_of_le hnonneg with hopen | hclosed
    · exact hopen
    · have hsome : (resolvedTo id key (.answered id key (.ok (some value)) :: earlier)).isSome := by
        rw [hvalue]
        rfl
      exact absurd hmem ((ht.not_resolved hsome hclosed.symm).1 value')

end Told

/-- The accounts say how keys that were found are answered. -/
theorem Accounted.answersAtOnce (hw : w.Accounted h) (hview : w.view? id = some v)
    (hkind : v.reserved.kindOf key = .visible) : w.AnswersAtOnce id key where
  begun value after before earlier hjournal := by
    have htold := hw.told
    rw [hjournal, List.append_assoc, List.cons_append] at htold
    obtain ⟨value', hvalue', hsame⟩ := htold.at_event.1.known hview hkind
    rcases List.eq_nil_or_concat after with rfl | ⟨after', e, rfl⟩
    · -- a view that has yet to answer does not know the key
      have hunknown := hw.settled id key _ (by rw [hjournal, List.append_assoc]; rfl)
      cases hvalue'.symm.trans hunknown
    · rw [List.concat_eq_append, List.append_assoc] at htold
      rw [List.concat_eq_append]
      have hanswer : e = .answered id key (.ok (some value')) := htold.prompt_at hvalue'
      exact ⟨after', value', by rw [hanswer], hsame⟩
  next value before earlier hjournal := by
    have htold := hw.told
    rw [hjournal] at htold
    obtain ⟨value', hvalue', hsame⟩ := htold.known hview hkind
    refine ⟨value', fun d => ?_, hsame⟩
    have hmemory : v.memory.get? key = some value' := by
      rw [hw.recalled id v key hview, hjournal]
      exact hvalue'
    exact (Dispatch.ViewReading.remembered hview hmemory).viewGet_eq

end World

/-! ## Main theorem -/

/-- **What was found is found again.** Let any program of any host be run where nothing has been
remembered yet. At its end, and at every moment at which the host's code is at a step meanwhile:
once a view has found a visible key, every read of it that begins later is answered at once,
whatever the target and the accessor have become, and neither is asked. The value is the same,
unless another read of the key had begun before the key was found and resolved it afterwards. -/
theorem Host.found_again (h : Host κ σ) (fuel : Nat) (x : Script κ σ α) (f : Frame κ σ)
    (hf : f.world.Fresh) :
    x.Throughout h fuel f fun w => ∀ id v key, w.view? id = some v →
      v.reserved.kindOf key = .visible → w.AnswersAtOnce id key :=
  Law.throughout (Law.views_library h f.world) (Law.views_reads h f.world)
    (fun _ hw _ _ _ hview hkind => hw.1.answersAtOnce hview hkind) fuel x
    ⟨hf.accounted h, .refl f.world⟩

/-- Ask the view for one key twice. -/
def askTwice : Script Unit Bool (Option Value) :=
  .ask (.viewGet ⟨0⟩ "x") fun _ => .ask (.viewGet ⟨0⟩ "x") fun
    | .ok answer => .answer answer
    | .error e => .fail e

/-- The second read is answered at once, with what the outer of the two nested reads has left. -/
theorem askTwice_found_again :
    askedWorld.Fresh ∧
    ∃ f', askTwice.run (askingHost.dispatch 2) ⟨⟨askedWorld, {}⟩, {}⟩ =
        some (.ok (some (.int 2)), f') ∧
      f'.world.AnswersAtOnce ⟨0⟩ "x" := by
  have hends : (askTwice.run (askingHost.dispatch 2) ⟨⟨askedWorld, {}⟩, {}⟩).map
      (Prod.map (fun r => r) fun f => (f.world.view? ⟨0⟩).map (·.reserved)) =
        some (.ok (some (.int 2)), some {}) := by cbv
  obtain ⟨⟨r, f'⟩, hrun, hresult⟩ := Option.map_eq_some_iff.mp hends
  obtain ⟨rfl, hreserved⟩ := Prod.mk.inj hresult
  obtain ⟨v, hview, hrules⟩ := Option.map_eq_some_iff.mp hreserved
  have hvisible : v.reserved.kindOf "x" = .visible := by
    rw [hrules]
    rfl
  have hfound := askingHost.found_again 2 askTwice ⟨⟨askedWorld, {}⟩, {}⟩ askedWorld_fresh
  exact ⟨askedWorld_fresh, f', hrun, (hfound _ f' hrun).1 ⟨0⟩ v "x" hview hvisible⟩

/-- **The value can change once more**: the inner read finds 1, the outer one that ends later finds
2, and 2 is what the view answers from then on. -/
theorem askedWorld_changes :
    askedWorld.Fresh ∧ ({} : Reserved).kindOf "x" = .visible ∧
    ∃ r f', askTwice.run (askingHost.dispatch 2) ⟨⟨askedWorld, {}⟩, {}⟩ = some (r, f') ∧
      ¬ f'.world.AnswersStay ⟨0⟩ "x" := by
  have hends : (askTwice.run (askingHost.dispatch 2) ⟨⟨askedWorld, {}⟩, {}⟩).map
      (Prod.map (fun r => r) (·.world.journal)) =
        some (.ok (some (.int 2)), [.answered ⟨0⟩ "x" (.ok (some (.int 2)))] ++ .asked ⟨0⟩ "x" ::
          [.answered ⟨0⟩ "x" (.ok (some (.int 2))), .resolved ⟨0⟩ "x" (.int 2)] ++
          .answered ⟨0⟩ "x" (.ok (some (.int 1))) ::
          [.resolved ⟨0⟩ "x" (.int 1), .consulted .none "x", .asked ⟨0⟩ "x",
            .consulted .none "x", .asked ⟨0⟩ "x"]) := by cbv
  obtain ⟨⟨r, f'⟩, hrun, hresult⟩ := Option.map_eq_some_iff.mp hends
  obtain ⟨-, hjournal⟩ := Prod.mk.inj hresult
  refine ⟨askedWorld_fresh, rfl, r, f', hrun, fun hstay => ?_⟩
  obtain ⟨after', hlast⟩ := hstay (.int 1) _ _ _ hjournal
  rcases List.append_eq_singleton_iff.mp hlast.symm with ⟨-, hsame⟩ | ⟨-, hsame⟩ <;> cases hsame

end LayeredScope
