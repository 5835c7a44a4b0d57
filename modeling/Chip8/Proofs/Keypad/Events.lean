import Chip8.Keypad.Terminal

/-!
# What key events mean

An event may press a key, ask for a quit or bring a character without a key, and what handling it
does to terminal keys is read off that (`handle_eq`, `pressedAt_handle`). Draining handles all that
is pending. A wait handles events up to the first that ends it, and that event settles its answer
(`awaitAmong_split`). Which events are still pending plays no part in any of this.
-/

namespace Chip8

/-- Whether an event asks for a quit: escape, or control-C. -/
def KeyEvent.asksQuit : KeyEvent → Bool
  | .escape => true
  | .other => false
  | .character c control => c = 'c' && control

namespace KeyMap

/-- The key that an event presses, if any. Letters count in lower case; control-C is no letter. -/
def keyOf? (map : KeyMap) : KeyEvent → Option HexKey
  | .escape | .other => none
  | .character c control => if c = 'c' && control then none else map.key? c.toLower

/-- The character of an event that neither presses a key nor asks for a quit. -/
def unmapped? (map : KeyMap) : KeyEvent → Option Char
  | .escape | .other => none
  | .character c control =>
    if (c = 'c' && control) || (map.key? c.toLower).isSome then none else some c

/-- Of several entries for a character the last counts. -/
theorem key?_eq_some_iff (map : KeyMap) (c : Char) (key : HexKey) :
    map.key? c = some key ↔
      ∃ earlier later, map = earlier ++ (c, key) :: later ∧ ∀ entry ∈ later, entry.1 ≠ c := by
  rw [key?, List.lookup_eq_some_iff]
  constructor
  · rintro ⟨later, earlier, hreverse, hlater⟩
    refine ⟨earlier.reverse, later.reverse, ?_, fun entry hentry he => ?_⟩
    · have hmap := congrArg List.reverse hreverse
      rwa [List.reverse_reverse, List.reverse_append, List.reverse_cons, List.append_assoc] at hmap
    · exact bne_iff_ne.mp (hlater entry (List.mem_reverse.mp hentry)) he.symm
  · rintro ⟨earlier, later, rfl, hlater⟩
    refine ⟨later.reverse, earlier.reverse, ?_, fun entry hentry => ?_⟩
    · rw [List.reverse_append, List.reverse_cons, List.append_assoc]
      rfl
    · exact bne_iff_ne.mpr (hlater entry (List.mem_reverse.mp hentry)).symm

end KeyMap

namespace TerminalKeys

/-- An event ends a wait if it asks for a quit or presses a key. -/
theorem endsWait_eq (map : KeyMap) (event : KeyEvent) :
    endsWait map event = (event.asksQuit || (map.keyOf? event).isSome) := by
  cases event with
  | escape => rfl
  | other => rfl
  | character c control =>
    simp only [endsWait, KeyEvent.asksQuit, KeyMap.keyOf?]
    by_cases hquit : (c = 'c' && control) = true
    · rw [if_pos hquit, hquit, Bool.true_or, Bool.true_or]
    · rw [if_neg hquit]

/-- Handling an event, in terms of what the event means. -/
theorem handle_eq (t : TerminalKeys) (event : KeyEvent) :
    t.handle event =
      { answer := t.map.keyOf? event
        keys := { t with
          quitting := t.quitting || event.asksQuit
          pressedAt := (t.map.keyOf? event).elim t.pressedAt fun key => (t.press key).pressedAt }
        log := (t.map.unmapped? event).toList.map .unmapped } := by
  cases event with
  | escape => simp [handle, KeyMap.keyOf?, KeyMap.unmapped?, KeyEvent.asksQuit]
  | other => simp [handle, KeyMap.keyOf?, KeyMap.unmapped?, KeyEvent.asksQuit]
  | character c control =>
    have hctrl : (c = 'c' ∧ control = true) ↔ (c = 'c' && control) = true := by
      rw [Bool.and_eq_true, decide_eq_true_iff]
    unfold handle KeyMap.keyOf? KeyMap.unmapped? KeyEvent.asksQuit
    simp only [hctrl]
    cases (c = 'c' && control : Bool) with
    | true => simp
    | false => cases hkey : t.map.key? c.toLower <;> simp [press]

section Handling

variable (t : TerminalKeys) (event : KeyEvent)

theorem handle_answer : (t.handle event).answer = t.map.keyOf? event := by
  rw [handle_eq]

theorem handle_log : (t.handle event).log = (t.map.unmapped? event).toList.map .unmapped := by
  rw [handle_eq]

theorem map_handle : (t.handle event).keys.map = t.map := by
  rw [handle_eq]

theorem hold_handle : (t.handle event).keys.hold = t.hold := by
  rw [handle_eq]

theorem now_handle : (t.handle event).keys.now = t.now := by
  rw [handle_eq]

theorem quitting_handle :
    (t.handle event).keys.quitting = (t.quitting || event.asksQuit) := by
  rw [handle_eq]

/-- An event that presses a key leaves the time at that key, and all other times alone. -/
theorem pressedAt_handle (key : HexKey) :
    (t.handle event).keys.pressedAt[key.val]? =
      if t.map.keyOf? event = some key then some (some t.now) else t.pressedAt[key.val]? := by
  rw [handle_eq]
  cases t.map.keyOf? event with
  | none => rfl
  | some pressed =>
    simp only [Option.elim_some, press, Vector.getElem?_set, Fin.val_inj, Option.some.injEq]

end Handling

/-- The same keys with other events pending. -/
def withPending (t : TerminalKeys) (events : List KeyEvent) : TerminalKeys :=
  { t with pending := events }

/-- Which events are pending makes no difference to the one that is handled. -/
theorem handle_withPending (t : TerminalKeys) (events : List KeyEvent) (event : KeyEvent) :
    (t.withPending events).handle event =
      { t.handle event with keys := (t.handle event).keys.withPending events } := by
  rw [handle_eq, handle_eq]
  rfl

theorem handleAll_withPending (t : TerminalKeys) (pending events : List KeyEvent) :
    (t.withPending pending).handleAll events =
      { t.handleAll events with keys := (t.handleAll events).keys.withPending pending } := by
  induction events generalizing t with
  | nil => rfl
  | cons event rest ih =>
    simp only [handleAll, handle_withPending, ih]

theorem map_handleAll (t : TerminalKeys) (events : List KeyEvent) :
    (t.handleAll events).keys.map = t.map := by
  induction events generalizing t with
  | nil => rfl
  | cons event rest ih => rw [handleAll, ih, map_handle]

theorem now_handleAll (t : TerminalKeys) (events : List KeyEvent) :
    (t.handleAll events).keys.now = t.now := by
  induction events generalizing t with
  | nil => rfl
  | cons event rest ih => rw [handleAll, ih, now_handle]

/-- Of several events each one that has no meaning is reported, in order. -/
theorem handleAll_log (t : TerminalKeys) (events : List KeyEvent) :
    (t.handleAll events).log = (events.filterMap t.map.unmapped?).map .unmapped := by
  induction events generalizing t with
  | nil => rfl
  | cons event rest ih =>
    rw [handleAll, handle_log, ih, map_handle, List.filterMap_cons]
    cases t.map.unmapped? event <;> rfl

/-- Draining handles all that is pending. -/
theorem drain_keys (t : TerminalKeys) :
    t.drain.keys = (t.handleAll t.pending).keys.withPending [] := by
  show ((t.withPending []).handleAll t.pending).keys = _
  rw [handleAll_withPending]

theorem drain_log (t : TerminalKeys) : t.drain.log = (t.handleAll t.pending).log := by
  show ((t.withPending []).handleAll t.pending).log = _
  rw [handleAll_withPending]

/-- Once a quit has been asked for, a wait takes no event. -/
theorem awaitAmong_of_quitting {t : TerminalKeys} (h : t.quitting = true)
    (events : List KeyEvent) :
    t.awaitAmong events = { answer := none, keys := t.withPending events } := by
  cases events with
  | nil => simp only [awaitAmong, withPending, h]
  | cons event rest => simp only [awaitAmong, withPending, h, ↓reduceIte]

/-- **A wait handles the events up to the first that ends it.** That event settles the answer, and
the events behind it are left pending. -/
theorem awaitAmong_split {t : TerminalKeys} (hquit : t.quitting = false) {before : List KeyEvent}
    (hbefore : ∀ e ∈ before, endsWait t.map e = false) {event : KeyEvent}
    (hevent : endsWait t.map event = true) (later : List KeyEvent) :
    t.awaitAmong (before ++ event :: later) =
      { answer := t.map.keyOf? event
        keys := (t.handleAll (before ++ [event])).keys.withPending later
        log := (t.handleAll (before ++ [event])).log } := by
  induction before generalizing t with
  | nil =>
    simp only [List.nil_append, awaitAmong, hquit, Bool.false_eq_true, ↓reduceIte, handleAll,
      handle_answer, List.append_nil]
    cases hkey : t.map.keyOf? event with
    | some key => rfl
    | none =>
      -- an event that ends a wait without a key asks for a quit
      have hasks : event.asksQuit = true := by
        rwa [endsWait_eq, hkey, Option.isSome_none, Bool.or_false] at hevent
      have hafter : (t.handle event).keys.quitting = true := by
        rw [quitting_handle, hasks, Bool.or_true]
      simp only [awaitAmong_of_quitting hafter, List.append_nil]
  | cons first rest ih =>
    have hfirst := hbefore first List.mem_cons_self
    rw [endsWait_eq, Bool.or_eq_false_iff, Option.isSome_eq_false_iff, Option.isNone_iff_eq_none]
      at hfirst
    have hafter : (t.handle first).keys.quitting = false := by
      rw [quitting_handle, hquit, hfirst.1, Bool.or_false]
    have hrest := ih hafter
      (fun e he => by rw [map_handle]; exact hbefore e (List.mem_cons_of_mem first he))
      (by rw [map_handle]; exact hevent)
    rw [map_handle] at hrest
    simp only [List.cons_append, awaitAmong, hquit, Bool.false_eq_true, ↓reduceIte, handleAll,
      handle_answer, hfirst.2, hrest]

end TerminalKeys

end Chip8
