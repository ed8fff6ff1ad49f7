import LayeredScope.Stack

/-!
# Chains of settings

What a fresh stack is built from is set step by step, and so is the rule of reserved names, which
can be handed over as a whole or changed in place. Later steps replace what earlier ones set.

* `Reserved.Setting`, `Settings.Step` — one step, on a rule and on what a stack is built from.
* `Settings.history` — what a chain of steps sets in the rule, in order.
* `Reserved.lastMark`, `Reserved.lastTextKey` — what was set last, by the history alone.
* `Reserved.configured_eq` — **a chain makes the rule of what was set last**, the empty prefix
  counting as none.
* `Settings.built_rule_follows` — how a stack that any chain has built tells the kinds of key apart,
  and which steps can change places or be left out.
-/

namespace LayeredScope

variable {κ : Type}

/-- A part of a state that some steps write, and the others leave alone, holds in the end what was
written last. -/
theorem foldl_last_write {s α β : Type} (step : s → α → s) (part : s → β) (write : α → Option β)
    (hstep : ∀ a x, part (step a x) = (write x).getD (part a)) (a : s) (steps : List α) :
    part (steps.foldl step a) = ((steps.filterMap write).getLast?).getD (part a) := by
  induction steps generalizing a with
  | nil => rfl
  | cons x rest ih =>
    rw [List.foldl_cons, ih, hstep]
    cases hwrite : write x with
    | none => simp [hwrite]
    | some v => simp [hwrite, List.getLast?_cons]

/-! ## Settings of the rule -/

namespace Reserved

/-- One setting of the rule of reserved names. -/
inductive Setting where
  | hiddenPrefix (mark : Option String)
  | textKey (key : String)

namespace Setting

def apply (r : Reserved) : Setting → Reserved
  | .hiddenPrefix mark => r.withHiddenPrefix mark
  | .textKey key => r.withTextKey key

/-- The prefix that a setting is about. -/
def mark? : Setting → Option (Option String)
  | .hiddenPrefix mark => some mark
  | .textKey _ => none

/-- The text key that a setting is about. -/
def key? : Setting → Option String
  | .hiddenPrefix _ => none
  | .textKey key => some key

end Setting

/-- The rule that settings make of the usual one. -/
def configured (settings : List Setting) : Reserved := settings.foldl Setting.apply {}

/-- The prefix that was set last, or else the usual one. -/
def lastMark (settings : List Setting) : Option String :=
  ((settings.filterMap Setting.mark?).getLast?).getD (some "_")

/-- The text key that was set last, or else the usual one. -/
def lastTextKey (settings : List Setting) : String :=
  ((settings.filterMap Setting.key?).getLast?).getD "__str__"

/-- A prefix that is not empty starts the key. -/
def Reserves (mark : Option String) (key : String) : Prop :=
  ∃ text, mark = some text ∧ text ≠ "" ∧ text.toList <+: key.toList

theorem not_reserves_iff {mark : Option String} {key : String} :
    ¬ Reserves mark key ↔ mark = none ∨ mark = some "" ∨
      ∃ text, mark = some text ∧ ¬ text.toList <+: key.toList := by
  cases mark with
  | none => simp [Reserves]
  | some text => by_cases htext : text = "" <;> simp [Reserves, htext]

theorem carries_iff {mark key : String} :
    carries mark key = true ↔ mark.toList <+: key.toList :=
  List.isPrefixOf_iff_prefix

/-! ## What was set last -/

theorem hiddenPrefix_foldl (r : Reserved) (settings : List Setting) :
    (settings.foldl Setting.apply r).hiddenPrefix =
      (((settings.filterMap Setting.mark?).getLast?).map (·.filter (· ≠ ""))).getD
        r.hiddenPrefix := by
  have hlast := foldl_last_write Setting.apply Reserved.hiddenPrefix
    (fun setting => setting.mark?.map (·.filter (· ≠ "")))
    (fun a x => by cases x <;> rfl) r settings
  rw [hlast, ← List.map_filterMap, List.getLast?_map]

theorem textKey_foldl (r : Reserved) (settings : List Setting) :
    (settings.foldl Setting.apply r).textKey =
      ((settings.filterMap Setting.key?).getLast?).getD r.textKey :=
  foldl_last_write Setting.apply Reserved.textKey Setting.key?
    (fun a x => by cases x <;> rfl) r settings

/-- **The rule has what was set last**, but for the empty prefix. -/
theorem configured_eq (settings : List Setting) :
    configured settings =
      { hiddenPrefix := (lastMark settings).filter (· ≠ ""), textKey := lastTextKey settings } := by
  have hprefix : (configured settings).hiddenPrefix = (lastMark settings).filter (· ≠ "") := by
    unfold configured lastMark
    rw [hiddenPrefix_foldl]
    cases (settings.filterMap Setting.mark?).getLast? <;> rfl
  have hkey : (configured settings).textKey = lastTextKey settings := textKey_foldl {} settings
  rw [← hprefix, ← hkey]

/-- No chain makes the empty prefix, which would start every key. -/
theorem hiddenPrefix_configured_ne (settings : List Setting) :
    (configured settings).hiddenPrefix ≠ some "" := by
  rw [configured_eq]
  exact withHiddenPrefix_ne_empty {} (lastMark settings)

/-! ## Kinds of key -/

section

variable {settings : List Setting} {key : String}

theorem filter_of_ne {text : String} (h : text ≠ "") : (some text).filter (· ≠ "") = some text := by
  simp [Option.filter_some, h]

theorem kindOf_of_not_reserves (h : ¬ Reserves (lastMark settings) key) :
    (configured settings).kindOf key = .visible := by
  rw [configured_eq]
  obtain hnone | hempty | ⟨text, htext, hprefix⟩ := not_reserves_iff.mp h
  · rw [hnone]
    rfl
  · rw [hempty]
    rfl
  · have hcarries : ¬ carries text key = true := fun hc => hprefix (carries_iff.mp hc)
    by_cases hne : text = ""
    · rw [htext, hne]
      rfl
    · rw [htext, filter_of_ne hne]
      exact if_neg hcarries

theorem kindOf_of_reserves (h : Reserves (lastMark settings) key) :
    (configured settings).kindOf key = if key = lastTextKey settings then .text else .hidden := by
  obtain ⟨text, htext, hne, hprefix⟩ := h
  rw [configured_eq, htext, filter_of_ne hne]
  exact if_pos (carries_iff.mpr hprefix)

/-- Of the keys that the prefix starts, the text key is the one that is not hidden. -/
theorem kindOf_configured_iff (settings : List Setting) (key : String) :
    ((configured settings).kindOf key = .visible ↔ ¬ Reserves (lastMark settings) key) ∧
    ((configured settings).kindOf key = .text ↔
      Reserves (lastMark settings) key ∧ key = lastTextKey settings) ∧
    ((configured settings).kindOf key = .hidden ↔
      Reserves (lastMark settings) key ∧ key ≠ lastTextKey settings) := by
  by_cases hreserves : Reserves (lastMark settings) key
  · rw [kindOf_of_reserves hreserves]
    by_cases hkey : key = lastTextKey settings
    · simp only [if_pos hkey, hreserves]
      simp [hkey]
    · simp only [if_neg hkey, hreserves]
      simp [hkey]
  · rw [kindOf_of_not_reserves hreserves]
    simp [hreserves]

end

end Reserved

/-! ## Steps -/

namespace Settings

/-- One step in setting what a stack is built from. -/
inductive Step (κ : Type) where
  /-- Hand over a rule of reserved names, made by settings of its own. -/
  | reserved (settings : List Reserved.Setting)
  | hiddenPrefix (mark : Option String)
  | textKey (key : String)
  | level (level : Int64)
  | accessor (accessor : Accessor κ)

namespace Step

def apply (b : Settings κ) : Step κ → Settings κ
  | .reserved settings => b.withReserved (.configured settings)
  | .hiddenPrefix mark => b.withHiddenPrefix mark
  | .textKey key => b.withTextKey key
  | .level n => b.withLevel n
  | .accessor a => b.withAccessor a

/-- What a step sets in the rule. A rule that is handed over sets both parts, first as they usually
are. -/
def settings : Step κ → List Reserved.Setting
  | .reserved settings => .hiddenPrefix (some "_") :: .textKey "__str__" :: settings
  | .hiddenPrefix mark => [.hiddenPrefix mark]
  | .textKey key => [.textKey key]
  | .level _ | .accessor _ => []

/-- Does a step have to do with the rule? -/
def onRule : Step κ → Bool
  | .reserved _ | .hiddenPrefix _ | .textKey _ => true
  | .level _ | .accessor _ => false

/-- A step does to the rule what it sets there. -/
theorem reserved_apply (b : Settings κ) (step : Step κ) :
    (apply b step).reserved = step.settings.foldl Reserved.Setting.apply b.reserved := by
  cases step with
  | reserved settings =>
    -- The two settings in front make the usual rule of any other.
    have husual : (b.reserved.withHiddenPrefix (some "_")).withTextKey "__str__" = {} := rfl
    show settings.foldl Reserved.Setting.apply {} = settings.foldl Reserved.Setting.apply _
    rw [← husual]
    rfl
  | hiddenPrefix mark => rfl
  | textKey key => rfl
  | level n => rfl
  | accessor a => rfl

end Step

/-- A setting of the prefix and one of the text key come to the same in either order. -/
theorem withHiddenPrefix_withTextKey (b : Settings κ) (mark : Option String) (key : String) :
    (b.withHiddenPrefix mark).withTextKey key = (b.withTextKey key).withHiddenPrefix mark :=
  congrArg b.withReserved (b.reserved.withHiddenPrefix_withTextKey mark key)

/-- What steps make of the usual settings. -/
def configured (steps : List (Step κ)) : Settings κ := steps.foldl Step.apply {}

/-- What steps set in the rule, one after the other. -/
def history (steps : List (Step κ)) : List Reserved.Setting := steps.flatMap Step.settings

/-- The rule of the stack that steps build. -/
def builtRule (steps : List (Step κ)) : Reserved := (configured steps).build.reserved

theorem history_cons (step : Step κ) (rest : List (Step κ)) :
    history (step :: rest) = step.settings ++ history rest := rfl

/-- **The rule after steps is the one that their history makes.** -/
theorem builtRule_eq (steps : List (Step κ)) : builtRule steps = .configured (history steps) := by
  have hrun : ∀ b : Settings κ, (steps.foldl Step.apply b).reserved =
      (history steps).foldl Reserved.Setting.apply b.reserved := by
    induction steps with
    | nil => exact fun b => rfl
    | cons step rest ih =>
      intro b
      rw [List.foldl_cons, ih, Step.reserved_apply, history_cons, List.foldl_append]
  exact hrun {}

/-- Steps on level and accessor leave no trace in the history. -/
theorem history_filter (steps : List (Step κ)) :
    history (steps.filter Step.onRule) = history steps := by
  induction steps with
  | nil => rfl
  | cons step rest ih =>
    rw [history_cons, ← ih]
    cases step <;> rfl

/-! ## Main theorem -/

/-- **A stack follows what was set last, whatever chain of steps has built it.** Take any steps:
settings of the prefix, of the text key, of the level and of the accessor, and rules that are handed
over as a whole, each made by any settings of its own; such a rule sets both the prefix and the text
key.

* The prefix is never the empty one.
* A key is visible exactly if the prefix that was set last is none, or empty, or does not start it.
  Of the other keys, the text key that was set last asks for the text, and all else is hidden.
* A setting of the prefix and one of the text key can change places, in the chain and among the
  settings of a rule that is handed over, and make the same of whatever comes before and after.
* Without its steps on level and accessor, a chain makes the same rule. -/
theorem built_rule_follows (steps : List (Step κ)) :
    (builtRule steps).hiddenPrefix ≠ some "" ∧
    (∀ key,
      ((builtRule steps).kindOf key = .visible ↔
        Reserved.lastMark (history steps) = none ∨ Reserved.lastMark (history steps) = some "" ∨
          ∃ mark, Reserved.lastMark (history steps) = some mark ∧ ¬ mark.toList <+: key.toList) ∧
      ((builtRule steps).kindOf key = .text ↔
        (∃ mark, Reserved.lastMark (history steps) = some mark ∧ mark ≠ "" ∧
          mark.toList <+: key.toList) ∧ key = Reserved.lastTextKey (history steps)) ∧
      ((builtRule steps).kindOf key = .hidden ↔
        (∃ mark, Reserved.lastMark (history steps) = some mark ∧ mark ≠ "" ∧
          mark.toList <+: key.toList) ∧ key ≠ Reserved.lastTextKey (history steps))) ∧
    (∀ (after : List (Step κ)) mark key,
      configured (steps ++ .hiddenPrefix mark :: .textKey key :: after) =
        configured (steps ++ .textKey key :: .hiddenPrefix mark :: after)) ∧
    (∀ before after mark key,
      Reserved.configured (before ++ .hiddenPrefix mark :: .textKey key :: after) =
        Reserved.configured (before ++ .textKey key :: .hiddenPrefix mark :: after)) ∧
    builtRule (steps.filter Step.onRule) = builtRule steps := by
  refine ⟨?_, ?_, ?_, ?_, ?_⟩
  · rw [builtRule_eq]
    exact Reserved.hiddenPrefix_configured_ne (history steps)
  · intro key
    obtain ⟨hvisible, htext, hhidden⟩ := Reserved.kindOf_configured_iff (history steps) key
    rw [builtRule_eq]
    exact ⟨hvisible.trans Reserved.not_reserves_iff, htext, hhidden⟩
  · intro after mark key
    have hswap := (configured steps).withHiddenPrefix_withTextKey mark key
    unfold configured at hswap ⊢
    rw [List.foldl_append, List.foldl_append]
    exact congrArg (after.foldl Step.apply) hswap
  · intro before after mark key
    have hswap := (Reserved.configured before).withHiddenPrefix_withTextKey mark key
    unfold Reserved.configured at hswap ⊢
    rw [List.foldl_append, List.foldl_append]
    exact congrArg (after.foldl Reserved.Setting.apply) hswap
  · rw [builtRule_eq, builtRule_eq, history_filter]

/-- A rule that is handed over brings the usual prefix back, and the empty one disables it. -/
example : (builtRule ([.hiddenPrefix (some "$"), .reserved [.textKey "_text"], .level 3] :
      List (Step Unit))).kindOf "_text" = .text ∧
    (builtRule ([.reserved [.textKey "_text"], .hiddenPrefix (some "")] :
      List (Step Unit))).kindOf "_text" = .visible := by
  decide

end Settings

end LayeredScope
