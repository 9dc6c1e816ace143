import Mathlib.Tactic.SplitIfs
import Mathlib.Tactic.Tauto
import MoonlightScarlet.Support.Since
import MoonlightScarlet.App.RemoteInput
/-!
# Dispatch of the shortcuts

`classify_shortcut` remembers the keys whose press was a command until they are released.
Over a run of key events the remembered keys are those with a command since their last
release.
-/

namespace MoonlightScarlet.App

open Support

variable {F : Type}

/-- The events given to `classify_shortcut`, with its answers. -/
def PressedInput.dispatches (state : PressedInput F) :
    List KeyEvent → List (KeyEvent × ShortcutDispatch)
  | [] => []
  | event :: events =>
      (event, (state.classifyShortcut event).1) ::
        dispatches (state.classifyShortcut event).2 events

namespace Shortcuts

open PressedInput

/-! ## One event -/

/-- What `classify_shortcut` can do with an event. -/
inductive Classified (state : PressedInput F) :
    KeyEvent → ShortcutDispatch → PressedInput F → Prop
  | unmapped {event} (hkey : event.vkCode = none) : Classified state event .notShortcut state
  | endsCommand {keycode vk} (modifiers) (hkey : keycodeToVk keycode = some vk)
      (hheld : vk ∈ state.suppressedShortcutKeys) :
      Classified state (.released keycode modifiers) .consumed
        { state with suppressedShortcutKeys := state.suppressedShortcutKeys.erase vk }
  | released {keycode vk} (modifiers) (hkey : keycodeToVk keycode = some vk)
      (hheld : vk ∉ state.suppressedShortcutKeys) :
      Classified state (.released keycode modifiers) .notShortcut state
  | pressed {keycode vk modifiers} (hkey : keycodeToVk keycode = some vk)
      (hplain : ¬(moonlightShortcutModifiers modifiers = true ∧ (shortcutCommand vk).isSome)) :
      Classified state (.pressed keycode modifiers) .notShortcut state
  | repeated {keycode vk modifiers command} (hkey : keycodeToVk keycode = some vk)
      (hmodifiers : moonlightShortcutModifiers modifiers = true)
      (hcommand : shortcutCommand vk = some command)
      (hheld : vk ∈ state.suppressedShortcutKeys) :
      Classified state (.pressed keycode modifiers) .consumed state
  | command {keycode vk modifiers command} (hkey : keycodeToVk keycode = some vk)
      (hmodifiers : moonlightShortcutModifiers modifiers = true)
      (hcommand : shortcutCommand vk = some command)
      (hheld : vk ∉ state.suppressedShortcutKeys) :
      Classified state (.pressed keycode modifiers) (.command command)
        { state with suppressedShortcutKeys := state.suppressedShortcutKeys.insert vk }

theorem classified (state : PressedInput F) (event : KeyEvent) :
    Classified state event (state.classifyShortcut event).1
      (state.classifyShortcut event).2 := by
  cases event with
  | char c => exact .unmapped rfl
  | released keycode modifiers =>
      cases hkey : keycodeToVk keycode with
      | none =>
          simp only [classifyShortcut, hkey]
          exact .unmapped hkey
      | some vk =>
          by_cases hheld : vk ∈ state.suppressedShortcutKeys
          · simp only [classifyShortcut, hkey, if_pos hheld]
            exact .endsCommand modifiers hkey hheld
          · simp only [classifyShortcut, hkey, if_neg hheld]
            exact .released modifiers hkey hheld
  | pressed keycode modifiers =>
      cases hkey : keycodeToVk keycode with
      | none =>
          simp only [classifyShortcut, hkey]
          exact .unmapped hkey
      | some vk =>
          by_cases hmodifiers : moonlightShortcutModifiers modifiers = true
          · cases hcommand : shortcutCommand vk with
            | none =>
                simp only [classifyShortcut, hkey, hmodifiers, hcommand, Bool.not_true,
                  Bool.false_eq_true, if_false]
                exact .pressed hkey fun h => by simp [hcommand] at h
            | some command =>
                by_cases hheld : vk ∈ state.suppressedShortcutKeys
                · simp only [classifyShortcut, hkey, hmodifiers, hcommand, Bool.not_true,
                    Bool.false_eq_true, if_false, if_pos hheld]
                  exact .repeated hkey hmodifiers hcommand hheld
                · simp only [classifyShortcut, hkey, hmodifiers, hcommand, Bool.not_true,
                    Bool.false_eq_true, if_false, if_neg hheld]
                  exact .command hkey hmodifiers hcommand hheld
          · rw [Bool.not_eq_true] at hmodifiers
            simp only [classifyShortcut, hkey, hmodifiers, Bool.not_false, if_true]
            exact .pressed hkey fun h => by simp [hmodifiers] at h

abbrev Entry := KeyEvent × ShortcutDispatch

def IsRelease (vk : UInt16) (entry : Entry) : Prop :=
  ∃ keycode modifiers, entry.1 = .released keycode modifiers ∧ keycodeToVk keycode = some vk

def IsCommand (vk : UInt16) (entry : Entry) : Prop :=
  entry.1.vkCode = some vk ∧ ∃ command, entry.2 = .command command

/-- A press of Z, Q or X with the three modifiers. -/
def IsShortcut (vk : UInt16) (event : KeyEvent) : Prop :=
  ∃ keycode modifiers, event = .pressed keycode modifiers ∧ keycodeToVk keycode = some vk ∧
    (modifiers.shift = true ∧ modifiers.control = true ∧ modifiers.alt = true) ∧
    (vk = 0x5A ∨ vk = 0x51 ∨ vk = 0x58)

theorem shortcutCommand_isSome_iff (vk : UInt16) :
    (shortcutCommand vk).isSome = true ↔ vk = 0x5A ∨ vk = 0x51 ∨ vk = 0x58 := by
  unfold shortcutCommand
  split_ifs with hz hq hx
  · exact iff_of_true rfl (.inl hz)
  · exact iff_of_true rfl (.inr (.inl hq))
  · exact iff_of_true rfl (.inr (.inr hx))
  · refine iff_of_false nofun ?_
    rintro (h | h | h)
    · exact hz h
    · exact hq h
    · exact hx h

theorem isShortcut_iff {vk : UInt16} {keycode : KeyCode} {modifiers : KeyModifiers}
    (hkey : keycodeToVk keycode = some vk) :
    IsShortcut vk (.pressed keycode modifiers) ↔
      moonlightShortcutModifiers modifiers = true ∧ (shortcutCommand vk).isSome = true := by
  rw [shortcutCommand_isSome_iff, moonlightShortcutModifiers, Bool.and_eq_true, Bool.and_eq_true]
  constructor
  · rintro ⟨_, _, heq, -, ⟨hshift, hcontrol, halt⟩, hletter⟩
    cases heq
    exact ⟨⟨⟨hshift, hcontrol⟩, halt⟩, hletter⟩
  · rintro ⟨⟨⟨hshift, hcontrol⟩, halt⟩, hletter⟩
    exact ⟨keycode, modifiers, rfl, hkey, ⟨hshift, hcontrol, halt⟩, hletter⟩

section Answer

variable {state next : PressedInput F} {event : KeyEvent} {dispatch : ShortcutDispatch}
  {vk : UInt16}

theorem not_isRelease_pressed (vk : UInt16) (keycode : KeyCode) (modifiers : KeyModifiers)
    (dispatch : ShortcutDispatch) : ¬IsRelease vk (.pressed keycode modifiers, dispatch) := by
  rintro ⟨_, _, h, -⟩
  cases h

theorem isRelease_iff {keycode : KeyCode} {modifiers : KeyModifiers} {key : UInt16}
    (hkey : keycodeToVk keycode = some key) :
    IsRelease vk (.released keycode modifiers, dispatch) ↔ vk = key := by
  constructor
  · rintro ⟨_, _, h, hvk⟩
    cases h
    exact Option.some.inj (hvk.symm.trans hkey)
  · rintro rfl
    exact ⟨keycode, modifiers, rfl, hkey⟩

theorem isCommand_iff {command : StreamShortcut} :
    IsCommand vk (event, .command command) ↔ event.vkCode = some vk :=
  ⟨fun h => h.1, fun h => ⟨h, command, rfl⟩⟩

theorem not_isCommand_notShortcut (vk : UInt16) (event : KeyEvent) :
    ¬IsCommand vk (event, .notShortcut) := by
  rintro ⟨-, _, h⟩
  cases h

theorem not_isCommand_consumed (vk : UInt16) (event : KeyEvent) :
    ¬IsCommand vk (event, .consumed) := by
  rintro ⟨-, _, h⟩
  cases h

/-- The remembered keys change as the entry says. -/
theorem Classified.mem_iff (h : Classified state event dispatch next) (vk : UInt16) :
    vk ∈ next.suppressedShortcutKeys ↔ IsCommand vk (event, dispatch) ∨
      vk ∈ state.suppressedShortcutKeys ∧ ¬IsRelease vk (event, dispatch) := by
  cases h with
  | unmapped hkey =>
      have hcommand := not_isCommand_notShortcut vk event
      have hrelease : ¬IsRelease vk (event, .notShortcut) := by
        rintro ⟨keycode, modifiers, rfl, hvk⟩
        exact nomatch hkey.symm.trans hvk
      tauto
  | @endsCommand keycode key modifiers hkey hheld =>
      have hcommand := not_isCommand_consumed vk (.released keycode modifiers)
      rw [SortedSet.mem_erase, isRelease_iff hkey]
      tauto
  | @released keycode key modifiers hkey hheld =>
      have hcommand := not_isCommand_notShortcut vk (.released keycode modifiers)
      have hother : vk ∈ state.suppressedShortcutKeys → vk ≠ key := by
        rintro hmem rfl
        exact hheld hmem
      rw [isRelease_iff hkey]
      tauto
  | @pressed keycode key modifiers hkey hplain =>
      have hcommand := not_isCommand_notShortcut vk (.pressed keycode modifiers)
      have hrelease := not_isRelease_pressed vk keycode modifiers .notShortcut
      tauto
  | @repeated keycode key modifiers command hkey hmodifiers hcommand hheld =>
      have hcommand := not_isCommand_consumed vk (.pressed keycode modifiers)
      have hrelease := not_isRelease_pressed vk keycode modifiers .consumed
      tauto
  | @command keycode key modifiers command hkey hmodifiers hcommand hheld =>
      have hrelease := not_isRelease_pressed vk keycode modifiers (.command command)
      have hvk : (KeyEvent.pressed keycode modifiers).vkCode = some vk ↔ vk = key := by
        rw [KeyEvent.vkCode, hkey, Option.some.injEq, eq_comm]
      rw [SortedSet.mem_insert, isCommand_iff, hvk]
      tauto

/-- A release is taken away from the host if and only if its press was. -/
theorem Classified.consumed_iff (h : Classified state event dispatch next)
    (hrelease : IsRelease vk (event, dispatch)) :
    dispatch = .consumed ↔ vk ∈ state.suppressedShortcutKeys := by
  obtain ⟨keycode, modifiers, rfl, hvk⟩ := hrelease
  cases h with
  | unmapped hkey => exact nomatch hkey.symm.trans hvk
  | endsCommand _ hkey hheld =>
      cases hkey.symm.trans hvk
      exact iff_of_true rfl hheld
  | released _ hkey hheld =>
      cases hkey.symm.trans hvk
      exact iff_of_false nofun hheld

theorem Classified.command_iff (h : Classified state event dispatch next) :
    IsCommand vk (event, dispatch) ↔
      IsShortcut vk event ∧ vk ∉ state.suppressedShortcutKeys := by
  have hkey_of : IsShortcut vk event → event.vkCode = some vk := by
    rintro ⟨keycode, modifiers, rfl, hkey, -⟩
    exact hkey
  cases h with
  | unmapped hkey =>
      refine iff_of_false (not_isCommand_notShortcut vk event) ?_
      rintro ⟨hshortcut, -⟩
      exact nomatch hkey.symm.trans (hkey_of hshortcut)
  | endsCommand modifiers hkey hheld =>
      refine iff_of_false (not_isCommand_consumed vk _) ?_
      rintro ⟨⟨_, _, heq, -⟩, -⟩
      cases heq
  | released modifiers hkey hheld =>
      refine iff_of_false (not_isCommand_notShortcut vk _) ?_
      rintro ⟨⟨_, _, heq, -⟩, -⟩
      cases heq
  | pressed hkey hplain =>
      refine iff_of_false (not_isCommand_notShortcut vk _) ?_
      rintro ⟨hshortcut, -⟩
      cases hkey.symm.trans (hkey_of hshortcut)
      exact hplain ((isShortcut_iff hkey).mp hshortcut)
  | repeated hkey hmodifiers hcommand hheld =>
      refine iff_of_false (not_isCommand_consumed vk _) ?_
      rintro ⟨hshortcut, hnot⟩
      cases hkey.symm.trans (hkey_of hshortcut)
      exact hnot hheld
  | command hkey hmodifiers hcommand hheld =>
      rw [isCommand_iff]
      constructor
      · intro hvk
        cases hkey.symm.trans hvk
        have hsome : (shortcutCommand vk).isSome = true := by rw [hcommand, Option.isSome_some]
        exact ⟨(isShortcut_iff hkey).mpr ⟨hmodifiers, hsome⟩, hheld⟩
      · rintro ⟨hshortcut, -⟩
        exact hkey_of hshortcut

end Answer

/-! ## A run of events -/

/-- A command of the key since its last release. -/
def Held (vk : UInt16) (past : List Entry) : Prop := Since (IsCommand vk) (IsRelease vk) past

/-- The remembered keys are those that are held. -/
def Tracks (past : List Entry) (state : PressedInput F) : Prop :=
  ∀ vk, vk ∈ state.suppressedShortcutKeys ↔ Held vk past

theorem tracks_nil : Tracks [] ({} : PressedInput F) := by
  intro vk
  exact iff_of_false (SortedSet.not_mem_empty vk) Since.not_nil

theorem tracks_step {past : List Entry} {state : PressedInput F} (h : Tracks past state)
    (event : KeyEvent) :
    Tracks (past ++ [(event, (state.classifyShortcut event).1)])
      (state.classifyShortcut event).2 := by
  intro vk
  rw [(classified state event).mem_iff, h vk]
  exact (Since.append_singleton_iff past _).symm

/-- Every entry of a run is an answer in a state that tracks the entries before it. -/
theorem classified_of_dispatches {past : List Entry} {state : PressedInput F}
    (h : Tracks past state) {events : List KeyEvent} {earlier later : List Entry}
    {event : KeyEvent} {dispatch : ShortcutDispatch}
    (hrun : state.dispatches events = earlier ++ (event, dispatch) :: later) :
    ∃ before next : PressedInput F,
      Tracks (past ++ earlier) before ∧ Classified before event dispatch next := by
  induction events generalizing past state earlier with
  | nil => exact absurd hrun.symm (List.append_ne_nil_of_right_ne_nil earlier nofun)
  | cons first events ih =>
      rw [dispatches] at hrun
      cases earlier with
      | nil =>
          cases hrun
          rw [List.append_nil]
          exact ⟨state, _, h, classified state event⟩
      | cons entry earlier =>
          obtain ⟨rfl, hrest⟩ := List.cons.inj hrun
          have hall := ih (tracks_step h first) hrest
          rwa [List.append_assoc] at hall

/-- What is answered for a key depends on what is remembered of that key. -/
theorem dispatch_congr {state state' : PressedInput F} {event : KeyEvent} {vk : UInt16}
    (hkey : event.vkCode = some vk)
    (hsame : vk ∈ state.suppressedShortcutKeys ↔ vk ∈ state'.suppressedShortcutKeys) :
    (state.classifyShortcut event).1 = (state'.classifyShortcut event).1 := by
  cases event with
  | char c => cases hkey
  | released keycode modifiers =>
      have hvk : keycodeToVk keycode = some vk := hkey
      simp only [classifyShortcut, hvk, hsame]
      split <;> rfl
  | pressed keycode modifiers =>
      have hvk : keycodeToVk keycode = some vk := hkey
      simp only [classifyShortcut, hvk, hsame]
      cases moonlightShortcutModifiers modifiers with
      | false => rfl
      | true =>
          cases shortcutCommand vk with
          | none => rfl
          | some command =>
              simp only [Bool.not_true, Bool.false_eq_true, if_false]
              split <;> rfl

/-- Events of other keys change nothing for a key. -/
theorem dispatches_filter (vk : UInt16) (events : List KeyEvent) {state state' : PressedInput F}
    (hsame : vk ∈ state.suppressedShortcutKeys ↔ vk ∈ state'.suppressedShortcutKeys) :
    (state.dispatches events).filter (fun entry => entry.1.vkCode = some vk) =
      state'.dispatches (events.filter fun event => event.vkCode = some vk) := by
  induction events generalizing state state' with
  | nil => rfl
  | cons event events ih =>
      have hnext := (classified state event).mem_iff vk
      by_cases hkey : event.vkCode = some vk
      · have hnext' := (classified state' event).mem_iff vk
        have hdispatch := dispatch_congr hkey hsame
        rw [hsame, hdispatch, ← hnext'] at hnext
        rw [dispatches, List.filter_cons_of_pos (by simpa using hkey),
          List.filter_cons_of_pos (by simpa using hkey), dispatches, hdispatch, ih hnext]
      · have hcommand : ¬IsCommand vk (event, (state.classifyShortcut event).1) :=
          fun h => hkey h.1
        have hrelease : ¬IsRelease vk (event, (state.classifyShortcut event).1) := by
          rintro ⟨_, _, rfl, hvk⟩
          exact hkey hvk
        have hkept : vk ∈ (state.classifyShortcut event).2.suppressedShortcutKeys ↔
            vk ∈ state'.suppressedShortcutKeys := by
          rw [hnext, ← hsame]
          tauto
        rw [dispatches, List.filter_cons_of_neg (by simpa using hkey),
          List.filter_cons_of_neg (by simpa using hkey), ih hkept]

theorem classify_shortcut_exact (events : List KeyEvent) (vk : UInt16) :
    (∀ earlier event dispatch later,
      ({} : PressedInput F).dispatches events = earlier ++ (event, dispatch) :: later →
        (IsRelease vk (event, dispatch) → (dispatch = .consumed ↔ Held vk earlier)) ∧
        (IsCommand vk (event, dispatch) ↔ IsShortcut vk event ∧ ¬Held vk earlier)) ∧
    (∀ earlier first between second later,
      ({} : PressedInput F).dispatches events =
          earlier ++ first :: (between ++ second :: later) →
        IsCommand vk first → IsCommand vk second → ∃ entry ∈ between, IsRelease vk entry) ∧
    (({} : PressedInput F).dispatches events).filter (fun entry => entry.1.vkCode = some vk) =
      ({} : PressedInput F).dispatches (events.filter fun event => event.vkCode = some vk) := by
  have hanswer : ∀ earlier event dispatch later,
      ({} : PressedInput F).dispatches events = earlier ++ (event, dispatch) :: later →
        (IsRelease vk (event, dispatch) → (dispatch = .consumed ↔ Held vk earlier)) ∧
        (IsCommand vk (event, dispatch) ↔ IsShortcut vk event ∧ ¬Held vk earlier) := by
    intro earlier event dispatch later hrun
    obtain ⟨before, next, htracks, hclassified⟩ := classified_of_dispatches tracks_nil hrun
    rw [List.nil_append] at htracks
    rw [← htracks vk]
    exact ⟨hclassified.consumed_iff, hclassified.command_iff⟩
  refine ⟨hanswer, ?_, dispatches_filter vk events Iff.rfl⟩
  rintro earlier first between ⟨event, dispatch⟩ later hrun hfirst hsecond
  rw [← List.cons_append, ← List.append_assoc] at hrun
  obtain ⟨-, hcommand⟩ := hanswer _ event dispatch later hrun
  exact Since.exists_end hfirst (hcommand.mp hsecond).2

end Shortcuts

end MoonlightScarlet.App
