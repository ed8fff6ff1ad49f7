import LayeredScope.Proofs.Law.Programs
import LayeredScope.Proofs.Views

/-!
# What the journal tells of views

The library enters into the journal when a view is asked for a key, when a key is resolved, and when
the view answers. A read may be under way while the same view is asked again.

* `Event.resolvedTo` — what a key was resolved to last; `Event.openReads` — how many reads of a key
  have begun and not ended.
* `Event.Fits`, `World.Told` — each event fits those before it: a key is resolved only while it is
  read, to what the guarded read of the target answered; and a view that is asked for a key which
  was resolved before answers at once.
* `World.Accounted` — the journal is told so, and memories hold what keys were resolved to last.
* `Law.views` — **every run keeps the accounts**: views stay, keys never leave a memory, and a run
  ends the reads that it begins.
-/

namespace LayeredScope

variable {κ σ α : Type}

/-! ## Reading the journal -/

namespace Event

/-- What the key of a view was resolved to last. -/
def resolvedTo (id : ObjectId) (key : String) : List Event → Option Value
  | [] => none
  | .resolved i k value :: earlier =>
    if i = id ∧ k = key then some value else resolvedTo id key earlier
  | _ :: earlier => resolvedTo id key earlier

/-- How many more reads of the key of a view have begun than have ended. -/
def openReads (id : ObjectId) (key : String) : List Event → Int
  | [] => 0
  | .asked i k :: earlier => openReads id key earlier + if i = id ∧ k = key then 1 else 0
  | .answered i k _ :: earlier => openReads id key earlier - if i = id ∧ k = key then 1 else 0
  | _ :: earlier => openReads id key earlier

variable {id : ObjectId} {key : String}

theorem openReads_append (later earlier : List Event) :
    openReads id key (later ++ earlier) = openReads id key later + openReads id key earlier := by
  induction later with
  | nil => simp [openReads]
  | cons event later ih =>
    cases event <;> simp only [List.cons_append, openReads, ih] <;> omega

theorem resolvedTo_cons {e : Event} (h : ∀ value, e ≠ .resolved id key value)
    (earlier : List Event) :
    resolvedTo id key (e :: earlier) = resolvedTo id key earlier := by
  cases e with
  | resolved i k value =>
    have hother : ¬(i = id ∧ k = key) := by
      rintro ⟨rfl, rfl⟩
      exact h value rfl
    show (if i = id ∧ k = key then some value else resolvedTo id key earlier) = _
    rw [if_neg hother]
  | _ => rfl

/-- A key was resolved last in the later stretch, or it was not resolved there. -/
theorem resolvedTo_append (later earlier : List Event) :
    resolvedTo id key (later ++ earlier) = resolvedTo id key earlier ∨
    ∃ value, .resolved id key value ∈ later ∧
      resolvedTo id key (later ++ earlier) = some value := by
  induction later with
  | nil => exact .inl rfl
  | cons e later ih =>
    by_cases hfirst : ∃ value, e = .resolved id key value
    · obtain ⟨value, rfl⟩ := hfirst
      refine .inr ⟨value, List.mem_cons_self, ?_⟩
      simp [resolvedTo]
    · rw [List.cons_append, resolvedTo_cons fun value he => hfirst ⟨value, he⟩]
      rcases ih with hsame | ⟨value, hmem, hvalue⟩
      · exact .inl hsame
      · exact .inr ⟨value, List.mem_cons_of_mem e hmem, hvalue⟩

/-- Stretches of the journal without a resolution change nothing. -/
theorem resolvedTo_append_of_not_mem {later : List Event}
    (h : ∀ value, .resolved id key value ∉ later) (earlier : List Event) :
    resolvedTo id key (later ++ earlier) = resolvedTo id key earlier := by
  rcases resolvedTo_append later earlier with hsame | ⟨value, hmem, -⟩
  · exact hsame
  · exact absurd hmem (h value)

/-- What a key was resolved to last it was resolved to at some moment. -/
theorem exists_of_resolvedTo {value : Value} {events : List Event}
    (h : resolvedTo id key events = some value) :
    ∃ later earlier, events = later ++ .resolved id key value :: earlier := by
  have hcases : resolvedTo id key (events ++ []) = none ∨ _ := resolvedTo_append events []
  rw [List.append_nil, h] at hcases
  rcases hcases with hnever | ⟨value', hmem, hvalue⟩
  · cases hnever
  · cases hvalue
    exact List.append_of_mem hmem

/-- A key that was resolved once stays resolved. -/
theorem resolvedTo_append_isSome {events : List Event} (h : (resolvedTo id key events).isSome)
    (later : List Event) : (resolvedTo id key (later ++ events)).isSome := by
  rcases resolvedTo_append later events with hsame | ⟨value, -, hvalue⟩
  · rw [hsame]
    exact h
  · rw [hvalue]
    rfl

/-- A stretch of the journal in which every read that began has ended, and no key is resolved for a
read that began before. -/
structure Closed (events : List Event) : Prop where
  balanced : ∀ id key, openReads id key events = 0
  asked : ∀ id key value, .resolved id key value ∈ events → .asked id key ∈ events

namespace Closed

theorem nil : Closed [] := ⟨fun _ _ => rfl, fun _ _ _ h => nomatch h⟩

theorem append {later earlier : List Event} (hl : Closed later) (he : Closed earlier) :
    Closed (later ++ earlier) := by
  refine ⟨fun id key => ?_, fun id key value hmem => ?_⟩
  · rw [openReads_append, hl.balanced, he.balanced]
    rfl
  · rcases List.mem_append.mp hmem with hmem | hmem
    · exact List.mem_append_left _ (hl.asked id key value hmem)
    · exact List.mem_append_right _ (he.asked id key value hmem)

theorem routine {e : Event} (h : e.Routine) : Closed [e] := by
  cases e with
  | asked | resolved | answered => cases h
  | _ => exact ⟨fun _ _ => rfl, fun _ _ _ hmem => nomatch hmem⟩

/-- A whole read, with what happened while it lasted. -/
theorem read {during : List Event} (h : Closed during) (id : ObjectId) (key : String)
    (outcome : Except Failure (Option Value)) {found : List Event}
    (hfound : found = [] ∨ ∃ value, found = [.resolved id key value]) :
    Closed (.answered id key outcome :: (found ++ (during ++ [.asked id key]))) := by
  refine ⟨fun i k => ?_, fun i k value hmem => ?_⟩
  · have hopen : openReads i k found = 0 := by
      rcases hfound with rfl | ⟨value, rfl⟩ <;> rfl
    simp only [openReads, openReads_append, hopen, h.balanced i k]
    omega
  · have hasked : i = id ∧ k = key ∨ .asked i k ∈ during := by
      rcases List.mem_cons.mp hmem with hmem | hmem
      · cases hmem
      · rcases List.mem_append.mp hmem with hmem | hmem
        · rcases hfound with rfl | ⟨value', rfl⟩
          · cases hmem
          · cases List.mem_singleton.mp hmem
            exact .inl ⟨rfl, rfl⟩
        · rcases List.mem_append.mp hmem with hmem | hmem
          · exact .inr (h.asked i k value hmem)
          · cases List.mem_singleton.mp hmem
    rcases hasked with ⟨rfl, rfl⟩ | hasked
    · simp
    · simp [hasked]

end Closed

end Event

/-! ## What is told -/

/-- A key of a view was read as a value through the view's accessor: at the end of the read the
journal was what is told here, and it began when the view had just been asked. -/
def Host.ReadAs (h : Host κ σ) (id : ObjectId) (v : ObjectView κ) (key : String) (value : Value)
    (told : List Event) : Prop :=
  ∃ fuel before after during earlier, (h.dispatch fuel).guardedRead v.accessor v.target key before =
    some (.ok value, after) ∧ before.journal = .asked id key :: earlier ∧ after.journal = told ∧
      told = during ++ .asked id key :: earlier

/-- An event can follow what was told earlier. -/
def Event.Fits (h : Host κ σ) (w : World κ σ) (earlier : List Event) : Event → Prop
  | .asked id _ => ∃ v, w.view? id = some v
  | .resolved id key value => ∃ v, w.view? id = some v ∧ v.reserved.kindOf key = .visible ∧
      0 < openReads id key earlier ∧ h.ReadAs id v key value earlier
  | .answered id key outcome => ∃ v, w.view? id = some v ∧ 0 < openReads id key earlier ∧
      (∀ value, outcome = .ok (some value) → v.reserved.kindOf key = .visible →
        resolvedTo id key earlier = some value) ∧
      (Accessor.Refuses key v.accessor → ∃ w₀ : World κ σ, outcome = v.withheld w₀ key)
  | .read _ name refused => name ∉ refused
  | _ => True

/-- Each event fits those before it. A view that is asked for a key which was resolved before
answers at once, with what it was resolved to last. -/
inductive World.Told (h : Host κ σ) (w : World κ σ) : List Event → Prop
  | nil : Told h w []
  | cons {e : Event} {earlier : List Event} (told : Told h w earlier)
      (fits : e.Fits h w earlier)
      (prompt : ∀ id key before value, earlier = .asked id key :: before →
        Event.resolvedTo id key before = some value → e = .answered id key (.ok (some value))) :
      Told h w (e :: earlier)

/-- The journal accounts for what views remember. -/
structure World.Accounted (h : Host κ σ) (w : World κ σ) : Prop where
  told : w.Told h w.journal
  /-- No view is about to answer from its memory. -/
  settled : ∀ id key before, w.journal = .asked id key :: before →
    Event.resolvedTo id key before = none
  recalled : ∀ id v key, w.view? id = some v → v.memory.get? key = Event.resolvedTo id key w.journal

namespace World

open Event

variable {h : Host κ σ} {w w' : World κ σ} {id : ObjectId} {v : ObjectView κ} {key : String}

namespace Told

theorem mono {events : List Event} (ht : w.Told h events) (hw : w.ViewsKept w') :
    w'.Told h events := by
  induction ht with
  | nil => exact .nil
  | @cons e earlier _ fits prompt ih =>
    refine .cons ih ?_ prompt
    cases e with
    | asked id key =>
      obtain ⟨v, hv⟩ := fits
      obtain ⟨memory, hv', -⟩ := hw id v hv
      exact ⟨_, hv'⟩
    | resolved id key value =>
      obtain ⟨v, hv, hrest⟩ := fits
      obtain ⟨memory, hv', -⟩ := hw id v hv
      exact ⟨_, hv', hrest⟩
    | answered id key outcome =>
      obtain ⟨v, hv, hrest⟩ := fits
      obtain ⟨memory, hv', -⟩ := hw id v hv
      exact ⟨_, hv', hrest⟩
    | _ => exact fits

/-- What was told up to any moment. -/
theorem of_append {later earlier : List Event} (ht : w.Told h (later ++ earlier)) :
    w.Told h earlier := by
  induction later with
  | nil => exact ht
  | cons e later ih =>
    cases ht with
    | cons told _ _ => exact ih told

/-- What is told of any moment. -/
theorem at_event {later earlier : List Event} {e : Event}
    (ht : w.Told h (later ++ e :: earlier)) : w.Told h earlier ∧ e.Fits h w earlier := by
  cases ht.of_append with
  | cons told fits _ => exact ⟨told, fits⟩

/-- No read ends that has not begun. -/
theorem openReads_nonneg {events : List Event} (ht : w.Told h events) (id : ObjectId)
    (key : String) : 0 ≤ openReads id key events := by
  induction ht with
  | nil => exact Int.le_refl 0
  | @cons e earlier _ fits _ ih =>
    cases e with
    | asked i k =>
      simp only [openReads]
      split <;> omega
    | answered i k outcome =>
      obtain ⟨_, _, hopen, -⟩ := fits
      simp only [openReads]
      split
      · rename_i hsame
        obtain ⟨rfl, rfl⟩ := hsame
        omega
      · omega
    | _ => exact ih

/-- While a view is being read there is a read of it. -/
theorem openReads_asked {events : List Event} (ht : w.Told h events) (id : ObjectId)
    (key : String) : 0 < openReads id key (.asked id key :: events) := by
  have := ht.openReads_nonneg id key
  simp only [openReads, and_self, if_true]
  omega

/-- The event after a question about something that was resolved before. -/
theorem prompt_at {later before : List Event} {e : Event} {value : Value}
    (ht : w.Told h (later ++ e :: .asked id key :: before))
    (hlast : resolvedTo id key before = some value) : e = .answered id key (.ok (some value)) := by
  cases ht.of_append with
  | cons _ _ prompt => exact prompt id key before value rfl hlast

/-- What a key is said to have been resolved to was read through the accessor of the view. -/
theorem of_resolvedTo {events : List Event} {value : Value} (ht : w.Told h events)
    (hlast : resolvedTo id key events = some value) :
    ∃ v told later, w.view? id = some v ∧ v.reserved.kindOf key = .visible ∧
      h.ReadAs id v key value told ∧ events = later ++ .resolved id key value :: told := by
  obtain ⟨later, told, hevents⟩ := exists_of_resolvedTo hlast
  rw [hevents] at ht
  obtain ⟨v, hv, hkind, -, hread⟩ := ht.at_event.2
  exact ⟨v, told, later, hv, hkind, hread, hevents⟩

end Told

namespace Accounted

/-- What does not concern views does not concern the accounts. -/
theorem of_view? (hw : w.Accounted h) (hview : ∀ id, w'.view? id = w.view? id)
    (hjournal : w'.journal = w.journal) : w'.Accounted h := by
  refine ⟨?_, ?_, ?_⟩
  · rw [hjournal]
    exact hw.told.mono (.of_view? hview)
  · rw [hjournal]
    exact hw.settled
  · intro id v key hv
    rw [hview] at hv
    rw [hjournal]
    exact hw.recalled id v key hv

/-- An event that changes no memory. -/
theorem record (hw : w.Accounted h) {e : Event} (hfits : e.Fits h w w.journal)
    (hsettled : ∀ id key, e = .asked id key → resolvedTo id key w.journal = none)
    (hresolved : ∀ id key value, e ≠ .resolved id key value) : (w.record e).Accounted h := by
  refine ⟨?_, ?_, ?_⟩
  · have htold : w.Told h (e :: w.journal) := by
      refine .cons hw.told hfits ?_
      intro id key before value hjournal hlast
      rw [hw.settled id key before hjournal] at hlast
      cases hlast
    exact htold.mono (.of_view? fun _ => rfl)
  · intro id key before hjournal
    cases hjournal
    exact hsettled id key rfl
  · intro id v key hv
    show v.memory.get? key = resolvedTo id key (e :: w.journal)
    rw [resolvedTo_cons (hresolved id key)]
    exact hw.recalled id v key hv

theorem routine (hw : w.Accounted h) {e : Event} (he : e.Routine) : (w.record e).Accounted h := by
  refine hw.record ?_ ?_ ?_
  · cases e with
    | asked | resolved | answered => cases he
    | read target name refused => exact he
    | _ => trivial
  · rintro id key rfl
    cases he
  · rintro id key value rfl
    cases he

/-- A view that is new has nothing to account for: nothing was told of it. -/
theorem newObject (hw : w.Accounted h) {o : Object κ} (ho : ∀ v, o = .view v → v.memory = ∅) :
    (w.newObject o).2.Accounted h := by
  refine ⟨hw.told.mono (.newObject w o), hw.settled, ?_⟩
  intro id v key hv
  show v.memory.get? key = resolvedTo id key w.journal
  rcases of_view?_newObject hv with hv | ⟨hnew, rfl⟩
  · exact hw.recalled id v key hv
  · rw [ho v rfl, Entries.get?_empty]
    cases hlast : resolvedTo id key w.journal with
    | none => rfl
    | some value =>
      obtain ⟨v', _, _, hv', -⟩ := hw.told.of_resolvedTo hlast
      have := lt_of_view? hv'
      omega

theorem asked (hw : w.Accounted h) (hv : w.view? id = some v) (hmemory : v.memory.get? key = none) :
    (w.record (.asked id key)).Accounted h := by
  refine hw.record ⟨v, hv⟩ ?_ (by rintro _ _ _ ⟨⟩)
  rintro _ _ ⟨⟩
  rw [← hw.recalled id v key hv, hmemory]

theorem resolved (hw : w.Accounted h) (hv : w.view? id = some v)
    (hkind : v.reserved.kindOf key = .visible) (hopen : 0 < openReads id key w.journal)
    {value : Value} (hread : h.ReadAs id v key value w.journal) :
    ((w.record (.resolved id key value)).remember id key value).Accounted h := by
  have hview : (w.record (.resolved id key value)).view? id = some v := hv
  refine ⟨?_, ?_, ?_⟩
  · rw [journal_remember]
    have htold : w.Told h (.resolved id key value :: w.journal) := by
      refine .cons hw.told ⟨v, hv, hkind, hopen, hread⟩ ?_
      intro id' key' before value' hjournal hlast
      rw [hw.settled id' key' before hjournal] at hlast
      cases hlast
    have hnoted :
        (w.record (.resolved id key value)).Told h (.resolved id key value :: w.journal) :=
      htold.mono (.of_view? fun _ => rfl)
    exact hnoted.mono (.remember hview key value)
  · intro id' key' before hjournal
    rw [journal_remember] at hjournal
    cases hjournal
  · intro id' v' key' hv'
    rw [journal_remember]
    rw [view?_remember hview] at hv'
    show v'.memory.get? key' =
      if id = id' ∧ key = key' then some value else resolvedTo id' key' w.journal
    by_cases hid : id' = id
    · rw [if_pos hid] at hv'
      cases hv'
      subst hid
      rw [Entries.get?_insert]
      by_cases hkey : key' = key
      · rw [if_pos hkey, if_pos ⟨rfl, hkey.symm⟩]
      · rw [if_neg hkey, if_neg fun hboth => hkey hboth.2.symm]
        exact hw.recalled id' v key' hv
    · rw [if_neg hid] at hv'
      rw [if_neg fun hboth => hid hboth.1.symm]
      exact hw.recalled id' v' key' hv'

theorem answered (hw : w.Accounted h) (hv : w.view? id = some v)
    (hopen : 0 < openReads id key w.journal) {outcome : Except Failure (Option Value)}
    (hfound : ∀ value, outcome = .ok (some value) → v.reserved.kindOf key = .visible →
      resolvedTo id key w.journal = some value)
    (hrefused : Accessor.Refuses key v.accessor → ∃ w₀ : World κ σ, outcome = v.withheld w₀ key) :
    (w.record (.answered id key outcome)).Accounted h :=
  hw.record ⟨v, hv, hopen, hfound, hrefused⟩ (by rintro _ _ ⟨⟩) (by rintro _ _ _ ⟨⟩)

/-- What is refused is not remembered, since it was never read. -/
theorem memory_refused (hw : w.Accounted h) (hv : w.view? id = some v)
    (hrefused : Accessor.Refuses key v.accessor) : v.memory.get? key = none := by
  rw [hw.recalled id v key hv]
  cases hlast : resolvedTo id key w.journal with
  | none => rfl
  | some value =>
    obtain ⟨v', _, _, hv', -, hread, -⟩ := hw.told.of_resolvedTo hlast
    cases hv.symm.trans hv'
    obtain ⟨fuel, before, after, _, _, hread, -⟩ := hread
    rw [Dispatch.guardedRead_refused hrefused] at hread
    cases hread

/-- A read that is answered from memory is told as a whole. -/
theorem remembered (hw : w.Accounted h) (hv : w.view? id = some v) {value : Value}
    (hmemory : v.memory.get? key = some value) :
    ((w.record (.asked id key)).record (.answered id key (.ok (some value)))).Accounted h := by
  have hlast : resolvedTo id key w.journal = some value := by
    rw [← hw.recalled id v key hv, hmemory]
  have hasked : w.Told h (.asked id key :: w.journal) := by
    refine .cons hw.told ⟨v, hv⟩ ?_
    intro id' key' before value' hjournal hlast'
    rw [hw.settled id' key' before hjournal] at hlast'
    cases hlast'
  refine ⟨?_, ?_, ?_⟩
  · have htold : w.Told h (.answered id key (.ok (some value)) :: .asked id key :: w.journal) := by
      refine .cons hasked ⟨v, hv, hw.told.openReads_asked id key, ?_, fun hrefused => ?_⟩ ?_
      · rintro _ ⟨⟩ -
        exact hlast
      · cases hmemory.symm.trans (hw.memory_refused hv hrefused)
      · rintro id' key' before value' ⟨⟩ hlast'
        cases hlast.symm.trans hlast'
        rfl
    exact htold.mono (.of_view? fun _ => rfl)
  · rintro id' key' before ⟨⟩
  · intro id' v' key' hv'
    exact hw.recalled id' v' key' hv'

end Accounted

/-- What a run makes of views: they stay, and the journal goes on with whole reads. -/
structure Continues (w w' : World κ σ) : Prop where
  views : w.ViewsKept w'
  journal : ∃ events, w'.journal = events ++ w.journal ∧ Closed events

namespace Continues

variable {w'' : World κ σ}

theorem refl (w : World κ σ) : w.Continues w := ⟨.refl w, [], rfl, .nil⟩

theorem trans (hw : w.Continues w') (hw' : w'.Continues w'') : w.Continues w'' := by
  obtain ⟨events, hevents, hclosed⟩ := hw.journal
  obtain ⟨events', hevents', hclosed'⟩ := hw'.journal
  refine ⟨hw.views.trans hw'.views, events' ++ events, ?_, hclosed'.append hclosed⟩
  rw [hevents', hevents, List.append_assoc]

theorem of_journal (hviews : w.ViewsKept w') (hjournal : w'.journal = w.journal) :
    w.Continues w' := ⟨hviews, [], hjournal, .nil⟩

/-- A read that happened as a whole. -/
theorem read {during found : List Event} {outcome : Except Failure (Option Value)}
    (hviews : w.ViewsKept w') (hduring : Closed during)
    (hfound : found = [] ∨ ∃ value, found = [.resolved id key value])
    (hjournal : w'.journal =
      .answered id key outcome :: (found ++ (during ++ .asked id key :: w.journal))) :
    w.Continues w' := by
  refine ⟨hviews, .answered id key outcome :: (found ++ (during ++ [.asked id key])), ?_,
    hduring.read id key outcome hfound⟩
  simp [hjournal]

end Continues

/-- Nothing has been noted and nothing is remembered yet. -/
structure Fresh (w : World κ σ) : Prop where
  journal : w.journal = []
  memory : ∀ id v, w.view? id = some v → v.memory = ∅

theorem Fresh.accounted (hw : w.Fresh) (h : Host κ σ) : w.Accounted h := by
  refine ⟨?_, ?_, ?_⟩
  · rw [hw.journal]
    exact .nil
  · intro id key before hjournal
    rw [hw.journal] at hjournal
    cases hjournal
  · intro id v key hv
    rw [hw.memory id v hv, hw.journal]
    rfl

end World

/-! ## The law -/

/-- The journal accounts for the views, and the views of `base` are still there. -/
def Law.views (h : Host κ σ) (base : World κ σ) : Law (World κ σ) where
  Holds w := w.Accounted h ∧ base.ViewsKept w
  Leads := World.Continues
  refl := .refl
  trans := .trans

variable {h : Host κ σ} {base : World κ σ}

theorem Law.views_library (h : Host κ σ) (base : World κ σ) : (Law.views h base).Library where
  elsewhere w w' hobjects _ hjournal hw := by
    have hview : ∀ id, w'.view? id = w.view? id := by
      intro id
      unfold World.view? World.object
      rw [hobjects]
    have hkept : w.ViewsKept w' := .of_view? hview
    exact ⟨⟨hw.1.of_view? hview hjournal, hw.2.trans hkept⟩, .of_journal hkept hjournal⟩
  record w event he hw := by
    have hkept : w.ViewsKept (w.record event) := .of_view? fun _ => rfl
    exact ⟨⟨hw.1.routine he, hw.2.trans hkept⟩, hkept, [event], rfl, .routine he⟩
  newObject w o ho hw := by
    have hkept : w.ViewsKept (w.newObject o).2 := .newObject w o
    exact ⟨⟨hw.1.newObject ho, hw.2.trans hkept⟩, .of_journal hkept rfl⟩
  newEnclosure w stack hw := by
    have hkept : w.ViewsKept (w.newEnclosure stack).2 := .of_view? fun _ => rfl
    exact ⟨⟨hw.1.of_view? (fun _ => rfl) rfl, hw.2.trans hkept⟩, .of_journal hkept rfl⟩

/-- The moment at which the target of a view has been read, and the view is about to answer. -/
structure World.Midway (h : Host κ σ) (w : World κ σ) (id : ObjectId) (v : ObjectView κ)
    (key : String) (w₁ : World κ σ) : Prop where
  accounted : w₁.Accounted h
  kept : w.ViewsKept w₁
  view : ∃ memory, w₁.view? id = some { v with memory }
  journal : ∃ during, w₁.journal = during ++ .asked id key :: w.journal ∧ Event.Closed during
  underWay : 0 < Event.openReads id key w₁.journal

/-- Whatever is run to read the target leaves the accounts in order. -/
theorem Dispatch.Keeps.midway {d e : Dispatch κ σ} (hd : d.Keeps (Law.views h base).everywhere e)
    {id : ObjectId} {v : ObjectView κ} {key : String} {w w₁ : World κ σ}
    {r : Except Failure Value} (hw : (Law.views h base).Holds w) (hview : w.view? id = some v)
    (hmemory : v.memory.get? key = none)
    (hread : d.guardedRead v.accessor v.target key (w.record (.asked id key)) = some (r, w₁)) :
    e.guardedRead v.accessor v.target key (w.record (.asked id key)) = some (r, w₁) ∧
      w.Midway h id v key w₁ := by
  obtain ⟨haccounted, hbase⟩ := hw
  have hasked : (Law.views h base).Holds (w.record (.asked id key)) :=
    ⟨haccounted.asked hview hmemory, hbase.trans (.of_view? fun _ => rfl)⟩
  obtain ⟨hy, ⟨haccounted₁, -⟩, hlead⟩ :=
    hd.guardedRead (Law.views_library h base).rendering _ _ _ _ r w₁ hasked hread
  obtain ⟨memory, hview₁, -⟩ := hlead.views id v hview
  obtain ⟨during, hjournal, hclosed⟩ := hlead.journal
  refine ⟨hy, haccounted₁, ?_, ⟨memory, hview₁⟩, ⟨during, hjournal, hclosed⟩, ?_⟩
  · exact .trans (.of_view? fun _ => rfl) hlead.views
  · have hopen : 0 < Event.openReads id key (.asked id key :: w.journal) :=
      haccounted.told.openReads_asked id key
    rw [hjournal, Event.openReads_append, hclosed.balanced, Int.zero_add]
    exact hopen

/-- A read of a view leaves the accounts in order. -/
theorem Law.views_viewGet {fuel : Nat} {e : Dispatch κ σ}
    (hd : (h.dispatch fuel).Keeps (Law.views h base).everywhere e) (id : ObjectId) (key : String) :
    ((h.dispatch fuel).viewGet id key).Keeps (Law.views h base) (e.viewGet id key) := by
  intro w r w' hw hx
  rw [Dispatch.viewGet_iff] at hx ⊢
  have haccounted := hw.1
  have hkept (event : Event) : w.ViewsKept ((w.record (.asked id key)).record event) :=
    .of_view? fun _ => rfl
  have hopen := haccounted.told.openReads_asked id key
  cases hx with
  | absent hview => exact ⟨.absent hview, hw, .refl w⟩
  | remembered hview hmemory =>
    exact ⟨.remembered hview hmemory,
      ⟨haccounted.remembered hview hmemory, hw.2.trans (hkept _)⟩,
      .read (hkept _) .nil (.inl rfl) rfl⟩
  | text hview hmemory hkind =>
    refine ⟨.text hview hmemory hkind, ⟨?_, hw.2.trans (hkept _)⟩,
      .read (hkept _) .nil (.inl rfl) rfl⟩
    refine (haccounted.asked hview hmemory).answered hview hopen (fun _ _ hvisible => ?_)
      fun _ => ⟨w, ?_⟩
    · rw [hkind] at hvisible
      cases hvisible
    · unfold ObjectView.withheld
      rw [hkind]
  | hidden hview hmemory hkind =>
    refine ⟨.hidden hview hmemory hkind, ⟨?_, hw.2.trans (hkept _)⟩,
      .read (hkept _) .nil (.inl rfl) rfl⟩
    refine (haccounted.asked hview hmemory).answered hview hopen (by rintro _ ⟨⟩)
      fun _ => ⟨w, ?_⟩
    unfold ObjectView.withheld
    rw [hkind]
  | @resolved v value w₁ hview hmemory hkind hread =>
    obtain ⟨hy, hmid⟩ := hd.midway hw hview hmemory hread
    obtain ⟨memory, hview₁⟩ := hmid.view
    obtain ⟨during, hjournal, hclosed⟩ := hmid.journal
    have hread' : h.ReadAs id { v with memory } key value w₁.journal :=
      ⟨fuel, w.record (.asked id key), w₁, during, w.journal, hread, rfl, rfl, hjournal⟩
    have hresolved := hmid.accounted.resolved hview₁ hkind hmid.underWay hread'
    have hnoted : (w₁.record (.resolved id key value)).view? id = some { v with memory } := hview₁
    let w₂ := (w₁.record (.resolved id key value)).remember id key value
    have hview₂ : w₂.view? id = some { v with memory := memory.insert key value } := by
      rw [World.view?_remember hnoted, if_pos rfl]
    have hjournal₂ : w₂.journal = .resolved id key value :: w₁.journal :=
      World.journal_remember _ id key value
    have hopen₂ : 0 < Event.openReads id key w₂.journal := by
      rw [hjournal₂]
      exact hmid.underWay
    have hkept₂ : w.ViewsKept (w₂.record (.answered id key (.ok (some value)))) := by
      refine hmid.kept.trans (.trans (.of_view? fun _ => rfl) ?_)
      exact .trans (.remember hnoted key value) (.of_view? fun _ => rfl)
    have hwhole : (w₂.record (.answered id key (.ok (some value)))).journal =
        .answered id key (.ok (some value)) ::
          ([.resolved id key value] ++ (during ++ .asked id key :: w.journal)) := by
      show _ :: w₂.journal = _
      rw [hjournal₂, hjournal]
      rfl
    refine ⟨.resolved hview hmemory hkind hy, ⟨?_, hw.2.trans hkept₂⟩,
      .read hkept₂ hclosed (.inr ⟨value, rfl⟩) hwhole⟩
    refine hresolved.answered hview₂ hopen₂ ?_ fun hrefused => ?_
    · rintro _ ⟨⟩ -
      rw [hjournal₂]
      simp [Event.resolvedTo]
    · rw [Dispatch.guardedRead_refused hrefused] at hread
      cases hread
  | @unresolved v cause w₁ hview hmemory hkind hread =>
    obtain ⟨hy, hmid⟩ := hd.midway hw hview hmemory hread
    obtain ⟨memory, hview₁⟩ := hmid.view
    obtain ⟨during, hjournal, hclosed⟩ := hmid.journal
    have hanswered : w.ViewsKept (w₁.record (.answered id key (Dispatch.missOr cause))) :=
      hmid.kept.trans (.of_view? fun _ => rfl)
    have hwhole : (w₁.record (.answered id key (Dispatch.missOr cause))).journal =
        .answered id key (Dispatch.missOr cause) ::
          ([] ++ (during ++ .asked id key :: w.journal)) := by
      show _ :: w₁.journal = _
      rw [hjournal]
      rfl
    refine ⟨.unresolved hview hmemory hkind hy, ⟨?_, hw.2.trans hanswered⟩,
      .read hanswered hclosed (.inl rfl) hwhole⟩
    refine hmid.accounted.answered hview₁ hmid.underWay (fun value hvalue _ => ?_)
      fun hrefused => ⟨w.record (.asked id key), ?_⟩
    · exact absurd hvalue (Dispatch.missOr_ne_found cause value)
    · rw [Dispatch.guardedRead_refused hrefused] at hread
      cases hread
      unfold ObjectView.withheld
      rw [hkind]
      rfl

/-- The reads of views and of bundles keep the accounts. -/
theorem Law.views_reads (h : Host κ σ) (base : World κ σ) (fuel : Nat) (e : Dispatch κ σ)
    (hd : (h.dispatch fuel).Keeps (Law.views h base).everywhere e) :
    (h.dispatch fuel).KeepsReads (Law.views h base).everywhere e where
  viewGet := Law.views_viewGet hd
  readBundle := by
    have hfree (w : World κ σ) id enclosure :
        (Law.views h base).Allows w (w.setEnclosure id enclosure) := by
      intro hw
      have hkept : w.ViewsKept (w.setEnclosure id enclosure) := .of_view? fun _ => rfl
      exact ⟨⟨hw.1.of_view? (fun _ => rfl) rfl, hw.2.trans hkept⟩, .of_journal hkept rfl⟩
    refine Dispatch.Keeps.readBundle (fun w id stack _ hw => ?_) fun key =>
      hd.lookup (Law.views_library h base).rendering key true
    obtain ⟨hreading, hleads⟩ := hfree w id .reading hw
    refine ⟨hreading, fun s hs hlead => ?_⟩
    obtain ⟨hidle, hends⟩ := hfree s.world id (.idle s.stack) hs
    exact ⟨hidle, hleads.trans (hlead.1.trans hends)⟩

end LayeredScope
