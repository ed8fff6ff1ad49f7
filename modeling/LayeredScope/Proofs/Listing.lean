import LayeredScope.Proofs.Containment
import LayeredScope.Proofs.Restoration
import LayeredScope.Proofs.Totals

/-!
# Stacks of mappings

The keys of a stack, its size, a search and the question whether a key is visible go through the
layers from different ends, and each stops for reasons of its own. On a stack of mappings none of
them has a reason to, and they say the same.

* `World.Lists` — how keys are listed: the mappings from the newest to the oldest, and of each its
  keys once, in whatever order. `World.Lists.count` — a key is listed for each place at which a
  mapping lies that has it.
* `World.countP_setEntries` — a mapping that changes, changes wherever it lies.
* `Dispatch.fetch_mappings` — a search finds what the newest mapping with the key has.
* `Dispatch.Agree` — what the traversals say of the same keys.
* `Script.Stacks` — programs that push nothing but mappings, and `Script.run_onlyMappings` — they
  leave a stack of mappings one.
* `Dispatch.mappings_agree` — **the four describe the same stack**, whichever mappings it holds, how
  often, and however they came to be what they are.
-/

namespace LayeredScope

variable {κ σ α : Type}

theorem Entries.contains_insert (e : Entries α) (key other : String) (value : α) :
    (e.insert key value).contains other = (decide (other = key) || e.contains other) := by
  by_cases h : other = key <;> simp [contains, h]

theorem Entries.contains_erase (e : Entries α) (key other : String) :
    (e.erase key).contains other = (!decide (other = key) && e.contains other) := by
  by_cases h : other = key <;> simp [contains, h]

/-- All layers are mappings. -/
def Stack.OnlyMappings (s : Stack κ) : Prop := ∃ ms : List MapId, s.layers = ms.map .mapping

namespace World

/-- The keys of mappings, listed one mapping after the other. -/
inductive Lists (w : World κ σ) : List MapId → List String → Prop
  | nil : Lists w [] []
  | cons {m : MapId} {ms : List MapId} {run keys : List String} (once : run.Nodup)
      (exactly : ∀ key, key ∈ run ↔ (w.entries m).contains key = true) (older : Lists w ms keys) :
      Lists w (m :: ms) (run ++ keys)

variable {w : World κ σ} {s : Stack κ} {ms : List MapId} {keys keys' : List String} {key : String}

/-! ## What is listed -/

/-- The keys of mappings can be listed, and they are. -/
theorem allKeys_mappings (w : World κ σ) (ms : List MapId) :
    ∃ keys, w.allKeys (ms.map .mapping) = .ok keys ∧ w.Lists ms keys := by
  induction ms with
  | nil => exact ⟨[], rfl, .nil⟩
  | cons m ms ih =>
    obtain ⟨keys, hkeys, hlists⟩ := ih
    refine ⟨(w.entries m).keys ++ keys, ?_, .cons (w.entries m).nodup_keys
      (fun key => Entries.mem_keys_iff) hlists⟩
    simp [allKeys, layerKeys, hkeys, bind, Except.bind, pure, Except.pure]

theorem keys_mappings (w : World κ σ) (hs : s.layers = ms.map .mapping) :
    ∃ keys, w.keys s = .ok keys ∧ w.Lists ms keys := by
  unfold World.keys
  rw [hs]
  exact w.allKeys_mappings ms

namespace Lists

/-- **A key is listed once for each place at which a mapping lies that has it.** -/
theorem count (h : w.Lists ms keys) (key : String) :
    keys.count key = ms.countP fun m => (w.entries m).contains key := by
  induction h with
  | nil => rfl
  | @cons m ms run keys once exactly older ih =>
    rw [List.count_append, ih, List.countP_cons, once.count]
    simp only [exactly]
    omega

theorem mem_iff (h : w.Lists ms keys) :
    key ∈ keys ↔ ∃ m ∈ ms, (w.entries m).contains key = true := by
  rw [← List.count_pos_iff, h.count, List.countP_pos_iff]

/-- As many keys are listed as there are entries in the mappings. -/
theorem length (h : w.Lists ms keys) :
    keys.length = (ms.map fun m => (w.entries m).size).sum := by
  induction h with
  | nil => rfl
  | @cons m ms run keys once exactly older ih =>
    have hperm : run.Perm (w.entries m).keys := by
      refine (List.perm_ext_iff_of_nodup once (w.entries m).nodup_keys).mpr fun key => ?_
      rw [exactly]
      exact Entries.mem_keys_iff.symm
    rw [List.length_append, ih, hperm.length_eq, Entries.length_keys, List.map_cons, List.sum_cons]

end Lists

/-! ## The size -/

theorem sized_mappings (hs : s.layers = ms.map .mapping) :
    ∀ layer ∈ s.layers, (w.count? layer).isSome := by
  simp [hs, count?]

/-- The layers report together as many entries as keys are listed. -/
theorem total_mappings (hs : s.layers = ms.map .mapping) (h : w.Lists ms keys) :
    w.total s = keys.length := by
  rw [h.length]
  simp [total, hs, count?, Function.comp_def]

/-- The size is the number of keys, as long as that fits into a word. -/
theorem size_mappings (hs : s.layers = ms.map .mapping) (h : w.Lists ms keys)
    (hfits : w.total s < 2 ^ 64) : ∃ n, w.size s = .ok n ∧ n.toNat = keys.length := by
  have hn : (UInt64.ofNat (w.total s)).toNat = w.total s % 2 ^ 64 := UInt64.toNat_ofNat'
  refine ⟨_, size_ok_iff.mpr ⟨sized_mappings hs, hn⟩, ?_⟩
  rw [hn, Nat.mod_eq_of_lt hfits, total_mappings hs h]

/-- A stack is empty exactly if no key is listed. -/
theorem isEmpty_mappings (hs : s.layers = ms.map .mapping) (h : w.Lists ms keys)
    (hfits : w.total s < 2 ^ 64) : w.isEmpty s = .ok true ↔ ∀ key, key ∉ keys := by
  rw [isEmpty_ok_iff, and_iff_right (sized_mappings hs), eq_comm, decide_eq_true_iff,
    Nat.dvd_iff_mod_eq_zero, Nat.mod_eq_of_lt hfits, total_mappings hs h,
    List.length_eq_zero_iff, List.eq_nil_iff_forall_not_mem]

/-! ## Changes of a mapping -/

/-- A mapping counts for each place at which it lies, with its old entries and with its new ones. -/
theorem countP_setEntries {m : MapId} (hm : m.index < w.maps.size) (e : Entries Value)
    (key : String) (ms : List MapId) :
    (ms.countP fun l => ((w.setEntries m e).entries l).contains key) +
        (if (w.entries m).contains key then ms.count m else 0) =
      (ms.countP fun l => (w.entries l).contains key) +
        if e.contains key then ms.count m else 0 := by
  induction ms with
  | nil => simp
  | cons l ms ih =>
    simp only [List.countP_cons, List.count_cons, entries_setEntries hm] at ih ⊢
    by_cases hl : l = m
    -- one more place at which the mapping lies, on both sides
    · subst hl
      simp only [if_true, beq_self_eq_true]
      cases hold : (w.entries l).contains key <;> cases hnew : e.contains key <;>
        simp [hold, hnew] at ih ⊢ <;> omega
    · have hne : (l == m) = false := by simp [hl]
      simp only [hl, hne, if_false, Bool.false_eq_true, Nat.add_zero]
      omega

/-- A key that is bound is listed once more for each place at which the mapping lies, unless it was
listed for them before. -/
theorem count_insert {m : MapId} (hm : m.index < w.maps.size) (key : String) (value : Value)
    (h : w.Lists ms keys) (h' : (w.insert m key value).Lists ms keys') (other : String) :
    keys'.count other = keys.count other +
      if other = key ∧ (w.entries m).contains key = false then ms.count m else 0 := by
  have hother := countP_setEntries hm ((w.entries m).insert key value) other ms
  rw [Entries.contains_insert] at hother
  rw [h'.count, h.count]
  by_cases hkey : other = key
  · subst hkey
    cases hbound : (w.entries m).contains other <;>
      simp [hbound, World.insert] at hother ⊢ <;> omega
  · simp [hkey, World.insert] at hother ⊢
    omega

/-- A key that is unbound is listed no more for the places at which the mapping lies. -/
theorem count_erase {m : MapId} (hm : m.index < w.maps.size) (key : String)
    (h : w.Lists ms keys) (h' : (w.erase m key).Lists ms keys') (other : String) :
    keys'.count other + (if other = key ∧ (w.entries m).contains key then ms.count m else 0) =
      keys.count other := by
  have hother := countP_setEntries hm ((w.entries m).erase key) other ms
  rw [Entries.contains_erase] at hother
  rw [h'.count, h.count]
  by_cases hkey : other = key
  · subst hkey
    cases hbound : (w.entries m).contains other <;>
      simp [hbound, World.erase] at hother ⊢ <;> omega
  · simp [hkey, World.erase] at hother ⊢
    omega

end World

/-! ## The search and the question -/

namespace Dispatch

variable {w : World κ σ} {s : Stack κ} {ms : List MapId}

/-- A search through mappings leaves nothing behind but its questions. -/
theorem search_mappings (d : Dispatch κ σ) (key : String) (ms : List MapId) (w : World κ σ) :
    ∃ events, d.search key (ms.map .mapping) w =
      some (.ok (ms.findSome? fun m => (w.entries m).get? key), { w with journal := events }) := by
  induction ms generalizing w with
  | nil => exact ⟨w.journal, rfl⟩
  | cons m ms ih =>
    have hasked : d.question (.mapping m) key w =
        some (.ok ((w.entries m).get? key), w.record (.searched (.mapping m) key)) := rfl
    rw [List.map_cons, search_cons, hasked, List.findSome?_cons]
    cases (w.entries m).get? key with
    | some v => exact ⟨_, rfl⟩
    | none => exact ih (w.record (.searched (.mapping m) key))

/-- **A search finds what the newest mapping with the key has.** -/
theorem fetch_mappings (d : Dispatch κ σ) (key : String) (w : World κ σ)
    (hs : s.layers = ms.map .mapping) :
    ∃ events, d.fetch s key w =
      some (found key (ms.findSome? fun m => (w.entries m).get? key),
        { w with journal := events }) := by
  obtain ⟨events, hsearch⟩ := d.search_mappings key ms w
  refine ⟨events, ?_⟩
  unfold Dispatch.fetch
  rw [hs, Run.bind_ok hsearch, Run.ofExcept_apply]

/-- A mapping that has the key is found exactly if the key is listed. -/
theorem findSome?_isSome_iff {keys : List String} {key : String} (h : w.Lists ms keys) :
    (ms.findSome? fun m => (w.entries m).get? key).isSome = true ↔ key ∈ keys := by
  simp [h.mem_iff, List.findSome?_isSome_iff, Entries.contains]

theorem outcome_of_mem (d : Dispatch κ σ) {keys : List String} {key : String}
    (hs : s.layers = ms.map .mapping) (h : w.Lists ms keys) (hmem : key ∈ keys) :
    ∃ v w', d.fetch s key w = some (.ok v, w') ∧ d.contains s key w = some (.ok true, w') := by
  obtain ⟨events, hfetch⟩ := d.fetch_mappings key w hs
  obtain ⟨v, hv⟩ := Option.isSome_iff_exists.mp ((findSome?_isSome_iff h).mpr hmem)
  rw [hv] at hfetch
  exact ⟨v, _, hfetch, contains_of_ok hfetch⟩

theorem outcome_of_not_mem (d : Dispatch κ σ) {keys : List String} {key : String}
    (hs : s.layers = ms.map .mapping) (h : w.Lists ms keys) (hmem : key ∉ keys) :
    ∃ w', d.fetch s key w = some (.error (.missingKey key), w') ∧
      d.contains s key w = some (.ok false, w') := by
  obtain ⟨events, hfetch⟩ := d.fetch_mappings key w hs
  have hnone : (ms.findSome? fun m => (w.entries m).get? key) = none := by
    rw [← Option.not_isSome_iff_eq_none, findSome?_isSome_iff h]
    exact hmem
  rw [hnone] at hfetch
  exact ⟨_, hfetch, contains_of_error hfetch⟩

/-- What the traversals of a stack of mappings say, all of them about the same keys. -/
structure Agree (d : Dispatch κ σ) (w : World κ σ) (s : Stack κ) (ms : List MapId)
    (keys : List String) : Prop where
  listed : w.keys s = .ok keys
  /-- The keys of a newer mapping come before those of an older one. -/
  ordered : w.Lists ms keys
  /-- Once for each place at which a mapping with the key lies. -/
  count : ∀ key, keys.count key = ms.countP fun m => (w.entries m).contains key
  /-- A search ends with what the newest mapping with the key has, if there is one. -/
  newest : ∀ key, ∃ events, d.fetch s key w =
    some (found key (ms.findSome? fun m => (w.entries m).get? key), { w with journal := events })
  contains_iff : ∀ key, (∃ w', d.contains s key w = some (.ok true, w')) ↔ key ∈ keys
  fetch_iff : ∀ key, (∃ v w', d.fetch s key w = some (.ok v, w')) ↔ key ∈ keys
  missing_iff : ∀ key, (∃ w', d.contains s key w = some (.ok false, w')) ↔ key ∉ keys
  failing_iff : ∀ key, (∃ w', d.fetch s key w = some (.error (.missingKey key), w')) ↔ key ∉ keys
  /-- Sizes are words, so the sizes of the mappings have to fit into one together. -/
  size : w.total s < 2 ^ 64 → ∃ n, w.size s = .ok n ∧ n.toNat = keys.length
  isEmpty_iff : w.total s < 2 ^ 64 → (w.isEmpty s = .ok true ↔
    ∀ key, ∃ w', d.fetch s key w = some (.error (.missingKey key), w'))

/-- The search and the question agree about the keys that are listed, and so do the size and the
question whether there are any. -/
theorem Agree.of_lists {d : Dispatch κ σ} {keys : List String} (hs : s.layers = ms.map .mapping)
    (hkeys : w.keys s = .ok keys) (h : w.Lists ms keys) : d.Agree w s ms keys := by
  have hasked : ∀ key,
      ((∃ w', d.contains s key w = some (.ok true, w')) ↔ key ∈ keys) ∧
      ((∃ v w', d.fetch s key w = some (.ok v, w')) ↔ key ∈ keys) ∧
      ((∃ w', d.contains s key w = some (.ok false, w')) ↔ key ∉ keys) ∧
      ((∃ w', d.fetch s key w = some (.error (.missingKey key), w')) ↔ key ∉ keys) := by
    intro key
    by_cases hmem : key ∈ keys
    · obtain ⟨v, w', hfetch, hcontains⟩ := d.outcome_of_mem hs h hmem
      simp [hfetch, hcontains, hmem]
    · obtain ⟨w', hfetch, hcontains⟩ := d.outcome_of_not_mem hs h hmem
      simp [hfetch, hcontains, hmem]
  refine ⟨hkeys, h, h.count, fun key => d.fetch_mappings key w hs, fun key => (hasked key).1,
    fun key => (hasked key).2.1, fun key => (hasked key).2.2.1, fun key => (hasked key).2.2.2,
    World.size_mappings hs h, fun hfits => ?_⟩
  rw [World.isEmpty_mappings hs h hfits]
  exact forall_congr' fun key => (hasked key).2.2.2.symm

end Dispatch

/-! ## Programs that push mappings -/

/-- What is pushed, if anything is, is a mapping. -/
def Op.Stacks : Op κ → Prop
  | .push layer | .enter layer => ∃ m, layer = .mapping m
  | _ => True

/-- A program that pushes nothing but mappings, whatever it sees and whatever it is answered. It may
change them by any other hand, and push one as often as it likes. -/
def Script.Stacks : Script κ σ α → Prop
  | .answer _ | .fail _ => True
  | .look next => ∀ frame, (next frame).Stacks
  | .keep _ next => next.Stacks
  | .ask op next => op.Stacks ∧ ∀ r, (next r).Stacks

theorem Stack.OnlyMappings.push {s : Stack κ} (h : s.OnlyMappings) (m : MapId) :
    (s.push (.mapping m)).OnlyMappings := by
  obtain ⟨ms, hms⟩ := h
  refine ⟨m :: ms, ?_⟩
  simp [Stack.push, hms]

theorem Stack.OnlyMappings.of_eq {s t : Stack κ} (h : s.OnlyMappings)
    (ht : t.layers = s.layers) : t.OnlyMappings := by
  obtain ⟨ms, hms⟩ := h
  exact ⟨ms, ht.trans hms⟩

theorem Stack.OnlyMappings.drop {s t : Stack κ} (h : s.OnlyMappings) {count : Nat}
    (ht : t.layers = s.layers.drop count) : t.OnlyMappings := by
  obtain ⟨ms, hms⟩ := h
  exact ⟨ms.drop count, by rw [ht, hms, List.map_drop]⟩

theorem Run.KeepsLayers.onlyMappings {x : Run (Session κ σ) α} (hx : x.KeepsLayers) :
    x.onSession.Preserves (fun f : Frame κ σ => f.stack.OnlyMappings) := by
  intro f r g hf h
  rw [Run.onSession_apply] at h
  split at h
  · cases h
  · rename_i r' s' hs
    cases h
    exact hf.of_eq (hx _ _ _ hs)

theorem updateStack_onlyMappings {f : Stack κ → Except Failure (α × Stack κ)}
    (hf : ∀ s v t, s.OnlyMappings → f s = .ok (v, t) → t.OnlyMappings) :
    (updateStack f : Run (Frame κ σ) α).Preserves (fun a => a.stack.OnlyMappings) := by
  refine .update fun a v b ha hb => ?_
  cases hstack : f a.stack with
  | error e =>
    rw [hstack] at hb
    cases hb
  | ok p =>
    rw [hstack] at hb
    cases hb
    exact hf a.stack _ _ ha hstack

theorem Stack.pop_layers {s t : Stack κ} {count : Nat} {popped : List Layer}
    (h : s.pop count = .ok (popped, t)) : t.layers = s.layers.drop count := by
  unfold pop at h
  split at h
  · cases h
    rfl
  · cases h

theorem Stack.popTop_layers {s t : Stack κ} {layer : Layer} (h : s.popTop = .ok (layer, t)) :
    t.layers = s.layers.drop 1 := by
  unfold popTop at h
  split at h
  · cases h
  · rename_i hlayers
    cases h
    simp [hlayers]

theorem Stack.clearField_layers {s t : Stack κ} {name : String} (h : s.clearField name = .ok t) :
    t.layers = s.layers := by
  unfold clearField at h
  split at h
  · cases h
  · split at h
    · cases h
      rfl
    · cases h

theorem World.writeField_layers {w : World κ σ} {s t : Stack κ} {name : String} {value : Value}
    (h : w.writeField s name value = .ok t) : t.layers = s.layers := by
  unfold World.writeField at h
  split at h
  · split at h <;> cases h
    rfl
  · cases h
    rfl

theorem Session.bundle_layers (s : Session κ σ) (positional : List Value)
    (keywords : Option MapId) : (s.bundle positional keywords).2.stack = s.stack := by
  simp only [Session.bundle]
  split <;> rfl

/-- **An operation that pushes nothing but mappings leaves a stack of mappings one**, as long as the
code that is handed the stack leaves its layers alone. -/
theorem Op.run_onlyMappings {d : Dispatch κ σ} (hd : d.KeepsLayers) {op : Op κ} (h : op.Stacks) :
    (op.run d).Preserves (fun f => f.stack.OnlyMappings) := by
  cases op with
  | push layer =>
    obtain ⟨m, rfl⟩ := h
    unfold Op.run
    refine updateStack_onlyMappings fun s v t hs ht => ?_
    cases ht
    exact hs.push m
  | enter layer =>
    obtain ⟨m, rfl⟩ := h
    exact .modify fun f hf => hf.push m
  | deepen => exact .modify fun f hf => hf
  | pop count => exact updateStack_onlyMappings fun s v t hs ht => hs.drop (Stack.pop_layers ht)
  | popTop => exact updateStack_onlyMappings fun s v t hs ht => hs.drop (Stack.popTop_layers ht)
  | setLevel level =>
    unfold Op.run
    refine updateStack_onlyMappings fun s v t hs ht => ?_
    cases ht
    exact hs
  | clearField name =>
    unfold Op.run
    refine updateStack_onlyMappings fun s v t hs ht => ?_
    cases hclear : s.clearField name with
    | error e => rw [hclear] at ht; cases ht
    | ok t' => rw [hclear] at ht; cases ht; exact hs.of_eq (Stack.clearField_layers hclear)
  | writeField name value =>
    refine .update fun f v g hf hg => ?_
    cases hwrite : f.world.writeField f.stack name value with
    | error e => rw [hwrite] at hg; cases hg
    | ok t => rw [hwrite] at hg; cases hg; exact hf.of_eq (World.writeField_layers hwrite)
  | newMap _ | insert _ _ _ | erase _ _ | newHost _ | newFunction _ | newTemplate _ | newView _ =>
    unfold Op.run updateWorld
    exact (Run.KeepsLayers.onWorld _).onlyMappings
  | readAttr _ _ | guardedRead _ _ _ | viewGet _ _ | askLayer _ _ | call _ | built _ _
  | render _ _ _ _ =>
    exact (Run.KeepsLayers.onWorld _).onlyMappings
  | fetch _ | contains _ | readOr _ _ _ | canRead _ _ | spawned _ =>
    exact (Run.KeepsLayers.bind .get fun _ => .onWorld _).onlyMappings
  -- these hand the stack itself to code, and that is where the assumption is needed
  | apply v client => exact (hd.apply v client).onlyMappings
  | lookup key invoked => exact (hd.lookup key invoked).onlyMappings
  | onAccess v => exact (hd.onAccess v).onlyMappings
  | within layers body => exact ((hd.evaluate body).withLayers layers).onlyMappings
  | renderAll blocks => exact (hd.renderAll blocks).onlyMappings
  | renderNested t client keywords => exact (hd.renderNested t client keywords).onlyMappings
  | viewOf target =>
    have hview : (LayeredScope.viewOf target : Run (Session κ σ) ObjectId).KeepsLayers :=
      by rintro s r s' ⟨⟩; rfl
    exact hview.onlyMappings
  | bundle positional keywords =>
    have hbundle :
        (Run.modifyGet fun s : Session κ σ => s.bundle positional keywords).KeepsLayers :=
      by rintro s r s' ⟨⟩; exact congrArg Stack.layers (s.bundle_layers positional keywords)
    exact hbundle.onlyMappings

/-- **A program that pushes nothing but mappings leaves a stack of mappings one**, however it ends
and whatever else it does. -/
theorem Script.run_onlyMappings {d : Dispatch κ σ} (hd : d.KeepsLayers) {x : Script κ σ α}
    (h : x.Stacks) : (x.run d).Preserves (fun f => f.stack.OnlyMappings) := by
  induction x with
  | answer v => exact .pure v
  | fail e => exact .fail e
  | look next ih =>
    intro f r g hf hrun
    exact ih f (h f) f r g hf hrun
  | keep state next ih =>
    intro f r g hf hrun
    exact ih h { f with world := { f.world with host := state } } r g hf hrun
  | ask op next ih =>
    intro f r g hf hrun
    simp only [Script.run] at hrun
    split at hrun
    · cases hrun
    · rename_i reply f₁ hop
      exact ih reply (h.2 reply) f₁ r g (Op.run_onlyMappings hd h.1 f reply f₁ hf hop) hrun

/-! ## Main theorem -/

/-- **On a stack of mappings the four traversals agree**, whichever mappings they are, however much
they overlap and however often one of them lies on the stack. The keys can be listed; each stands
once for each place at which a mapping with it lies, those of newer mappings first. The size is the
number of keys listed. A key is listed exactly if it is visible and exactly if the search finds a
value, which is then that of the newest mapping with it; otherwise it is missing, and nothing else
can be the outcome. The stack is empty exactly if every key is missing. All of it holds of the
mappings as they are at the moment: one that is changed by another hand is changed at each place at
which it lies. Programs that push nothing but mappings keep to such stacks, so it holds wherever
they get. -/
theorem Dispatch.mappings_agree (d : Dispatch κ σ) :
    (∀ (w : World κ σ) (s : Stack κ) ms, s.layers = ms.map .mapping →
      ∃ keys, d.Agree w s ms keys) ∧
    (∀ (w : World κ σ) s ms keys m, d.Agree w s ms keys → m.index < w.maps.size →
      ∀ key keys',
      (∀ value, d.Agree (w.insert m key value) s ms keys' → ∀ other,
        keys'.count other = keys.count other +
          if other = key ∧ (w.entries m).contains key = false then ms.count m else 0) ∧
      (d.Agree (w.erase m key) s ms keys' → ∀ other,
        keys'.count other + (if other = key ∧ (w.entries m).contains key then ms.count m else 0) =
          keys.count other)) ∧
    (d.KeepsLayers → ∀ (x : Script κ σ α) f r f', x.Stacks → f.stack.OnlyMappings →
      x.run d f = some (r, f') →
      ∃ ms keys, f'.stack.layers = ms.map .mapping ∧ d.Agree f'.world f'.stack ms keys) := by
  have hagree : ∀ (w : World κ σ) (s : Stack κ) ms, s.layers = ms.map .mapping →
      ∃ keys, d.Agree w s ms keys := by
    intro w s ms hs
    obtain ⟨keys, hkeys, hlists⟩ := w.keys_mappings hs
    exact ⟨keys, .of_lists hs hkeys hlists⟩
  refine ⟨hagree, ?_, ?_⟩
  · intro w s ms keys m h hm key keys'
    constructor
    · intro value h' other
      exact World.count_insert hm key value h.ordered h'.ordered other
    · intro h' other
      exact World.count_erase hm key h.ordered h'.ordered other
  · intro hd x f r f' hx hf hrun
    obtain ⟨ms, hms⟩ := Script.run_onlyMappings hd hx f r f' hf hrun
    obtain ⟨keys, hkeys⟩ := hagree f'.world f'.stack ms hms
    exact ⟨ms, keys, hms, hkeys⟩

/-- Two mappings with a key in common, the second on the stack. -/
def sharedFrame : Frame Unit Unit where
  world.maps := #[Entries.ofList [("a", .int 1), ("b", .int 2)], Entries.ofList [("b", .int 3)]]
  world.host := ()
  stack := { layers := [.mapping ⟨1⟩] }

/-- The first mapping is pushed twice, and then another key is bound in it. -/
def aliasingScript : Script Unit Unit Unit :=
  .ask (.push (.mapping ⟨0⟩)) fun _ =>
    .ask (.push (.mapping ⟨0⟩)) fun _ =>
      .ask (.insert ⟨0⟩ "c" (.int 4)) fun _ => .answer ()

/-- The new key is listed twice, since the mapping lies on the stack twice. -/
theorem aliasingScript_agree :
    aliasingScript.Stacks ∧ sharedFrame.stack.OnlyMappings ∧
    ∃ f ms keys, aliasingScript.run (refusingHost.dispatch 0) sharedFrame = some (.ok (), f) ∧
      (refusingHost.dispatch 0).Agree f.world f.stack ms keys ∧
      f.world.total f.stack < 2 ^ 64 ∧ keys = ["a", "b", "c", "a", "b", "c", "b"] ∧
      ∃ before, (refusingHost.dispatch 0).Agree sharedFrame.world f.stack ms before ∧
        keys.count "c" = before.count "c" + 2 := by
  obtain ⟨hagree, hchange, hprograms⟩ :=
    Dispatch.mappings_agree (α := Unit) (refusingHost.dispatch 0)
  have hstacks : aliasingScript.Stacks :=
    ⟨⟨_, rfl⟩, fun _ => ⟨⟨_, rfl⟩, fun _ => ⟨trivial, fun _ => trivial⟩⟩⟩
  have hmappings : sharedFrame.stack.OnlyMappings := ⟨[⟨1⟩], rfl⟩
  have hrun : aliasingScript.run (refusingHost.dispatch 0) sharedFrame = some (.ok (),
      ⟨⟨sharedFrame.world.insert ⟨0⟩ "c" (.int 4),
        { layers := [.mapping ⟨0⟩, .mapping ⟨0⟩, .mapping ⟨1⟩] }⟩, {}⟩) := rfl
  obtain ⟨ms, keys, hlayers, hkeys⟩ := hprograms
    (Host.dispatch_keepsLayers refusingHost_keepsLayers 0) _ _ _ _ hstacks hmappings hrun
  obtain rfl : ms = [⟨0⟩, ⟨0⟩, ⟨1⟩] :=
    (List.map_inj_right fun _ _ h => Layer.mapping.inj h).mp hlayers.symm
  obtain ⟨before, hbefore⟩ := hagree sharedFrame.world _ _ hlayers
  have hcount := (hchange _ _ _ before ⟨0⟩ hbefore (by decide) "c" keys).1 (.int 4) hkeys "c"
  have hlisted : keys = ["a", "b", "c", "a", "b", "c", "b"] :=
    Except.ok.inj (hkeys.listed.symm.trans rfl)
  exact ⟨hstacks, hmappings, _, _, keys, hrun, hkeys, by decide, hlisted, before, hbefore, hcount⟩

end LayeredScope
