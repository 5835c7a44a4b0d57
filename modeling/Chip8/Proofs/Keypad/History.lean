import Chip8.Proofs.Keypad.Events

/-!
# Every key event is handled once

Terminal keys are read in two ways, which share one queue: questions take all that is pending, a
wait stops at the first event of use. `handledBy` says which events a call takes, and the history of
a session is what its calls took, each event with its time. `serve_eq` is all that a single call
does; from it follow, by induction on the calls, that the history and the pending events together
are the events that arrived, and that the keys are what the history tells (`Tells`).
-/

namespace Chip8

/-- What may happen to terminal keys. -/
inductive KeyCall where
  | arrive (events : List KeyEvent)
  /-- Time passes, in nanoseconds. -/
  | elapse (time : Nat)
  | isDown (key : UInt8)
  | quitRequested
  | awaitKey
  deriving DecidableEq, Repr

namespace KeyCall

def arrived : KeyCall → List KeyEvent
  | arrive events => events
  | _ => []

def elapsed : KeyCall → Nat
  | elapse time => time
  | _ => 0

end KeyCall

namespace TerminalKeys

def serve (t : TerminalKeys) : KeyCall → Reading TerminalKeys Unit
  | .arrive events => { answer := (), keys := t.arrive events }
  | .elapse time => { answer := (), keys := { t with now := t.now + time } }
  | .isDown key =>
    let reading := Keypad.isDown t key
    { answer := (), keys := reading.keys, log := reading.log }
  | .quitRequested =>
    let reading := Keypad.quitRequested t
    { answer := (), keys := reading.keys, log := reading.log }
  | .awaitKey =>
    let reading := Keypad.awaitKey t
    { answer := (), keys := reading.keys, log := reading.log }

def serveAll (t : TerminalKeys) : List KeyCall → Reading TerminalKeys Unit
  | [] => { answer := (), keys := t }
  | call :: rest =>
    let first := t.serve call
    let others := first.keys.serveAll rest
    { answer := (), keys := others.keys, log := first.log ++ others.log }

/-- Whether a call comes back without events that have yet to arrive: a wait has to find a quit
asked for, or an event pending that ends it. -/
def Returns (t : TerminalKeys) (call : KeyCall) : Prop :=
  call = .awaitKey → t.quitting = true ∨ ∃ e ∈ t.pending, endsWait t.map e = true

/-- Whether none of the calls blocks. -/
def NeverBlocks (t : TerminalKeys) : List KeyCall → Prop
  | [] => True
  | call :: rest => t.Returns call ∧ (t.serve call).keys.NeverBlocks rest

instance (t : TerminalKeys) (call : KeyCall) : Decidable (t.Returns call) :=
  inferInstanceAs (Decidable (_ → _))

instance decidableNeverBlocks (t : TerminalKeys) :
    (calls : List KeyCall) → Decidable (t.NeverBlocks calls)
  | [] => .isTrue trivial
  | call :: rest =>
    have := decidableNeverBlocks (t.serve call).keys rest
    inferInstanceAs (Decidable (_ ∧ _))

/-- The pending events that a call handles: a question all of them, a wait those up to the first
that ends it, and none once a quit has been asked for. -/
def handledBy (t : TerminalKeys) : KeyCall → List KeyEvent
  | .arrive _ | .elapse _ => []
  | .isDown _ | .quitRequested => t.pending
  | .awaitKey =>
    if t.quitting then [] else t.pending.take (t.pending.findIdx (endsWait t.map) + 1)

/-- The events that calls handle, each with the time. -/
def history (t : TerminalKeys) : List KeyCall → List (Nat × KeyEvent)
  | [] => []
  | call :: rest => (t.handledBy call).map (t.now, ·) ++ (t.serve call).keys.history rest

/-- Events of which one ends a wait, taken apart at the first that does. -/
theorem split_of_endsWait {map : KeyMap} {events : List KeyEvent}
    (h : ∃ e ∈ events, endsWait map e = true) :
    ∃ before event later, events = before ++ event :: later ∧
      (∀ e ∈ before, endsWait map e = false) ∧ endsWait map event = true := by
  obtain ⟨event, hfind⟩ := Option.isSome_iff_exists.mp (List.find?_isSome.mpr h)
  obtain ⟨hevent, before, later, hsplit, hbefore⟩ := List.find?_eq_some_iff_append.mp hfind
  exact ⟨before, event, later, hsplit, fun e he => by simpa using hbefore e he, hevent⟩

theorem handledBy_awaitKey {t : TerminalKeys} {before later : List KeyEvent} {event : KeyEvent}
    (hquit : t.quitting = false) (hpending : t.pending = before ++ event :: later)
    (hbefore : ∀ e ∈ before, endsWait t.map e = false) (hevent : endsWait t.map event = true) :
    t.handledBy .awaitKey = before ++ [event] := by
  have hindex : (before ++ event :: later).findIdx (endsWait t.map) = before.length := by
    have hnone : before.findIdx (endsWait t.map) = before.length :=
      List.findIdx_eq_length.mpr hbefore
    rw [List.findIdx_append, hnone, if_neg (Nat.lt_irrefl _), List.findIdx_cons, hevent]
    exact Nat.zero_add _
  have hsplit : before ++ event :: later = (before ++ [event]) ++ later := by
    rw [List.append_assoc]
    rfl
  rw [handledBy, hquit, hpending, hindex, hsplit]
  exact List.take_left' List.length_append

theorem awaitKey_of_quitting {t : TerminalKeys} (h : t.quitting = true) :
    Keypad.awaitKey t = ⟨none, t, [.waiting]⟩ := by
  show Reading.mk _ _ _ = _
  rw [awaitAmong_of_quitting h]
  rfl

theorem awaitKey_split {t : TerminalKeys} {before later : List KeyEvent} {event : KeyEvent}
    (hquit : t.quitting = false) (hpending : t.pending = before ++ event :: later)
    (hbefore : ∀ e ∈ before, endsWait t.map e = false) (hevent : endsWait t.map event = true) :
    Keypad.awaitKey t =
      { answer := (t.map.keyOf? event).map fun key => UInt8.ofNat key.val
        keys := (t.handleAll (before ++ [event])).keys.withPending later
        log := .waiting :: (t.handleAll (before ++ [event])).log } := by
  show Reading.mk _ _ _ = _
  rw [hpending, awaitAmong_split hquit hbefore hevent]

/-- Handling events is never reported as a wait. -/
theorem filter_handleAll_log (t : TerminalKeys) (events : List KeyEvent) :
    (t.handleAll events).log.filter (· != .waiting) = (t.handleAll events).log := by
  rw [handleAll_log, List.filter_eq_self]
  intro record hrecord
  obtain ⟨c, -, rfl⟩ := List.mem_map.mp hrecord
  rfl

/-- **What one call does.** It handles its events, one after the other, and leaves the others and
those that arrive pending; and time may pass. -/
theorem serve_eq {t : TerminalKeys} {call : KeyCall} (h : t.Returns call) :
    ∃ later, t.handledBy call ++ later = t.pending ++ call.arrived ∧
      (t.serve call).keys = { (t.handleAll (t.handledBy call)).keys with
        now := t.now + call.elapsed, pending := later } ∧
      (t.serve call).log.filter (· != .waiting) = (t.handleAll (t.handledBy call)).log := by
  have hnow (events : List KeyEvent) (later : List KeyEvent) :
      (t.handleAll events).keys.withPending later =
        { (t.handleAll events).keys with now := t.now + 0, pending := later } := by
    rw [withPending, Nat.add_zero, ← now_handleAll t events]
  -- what a question reports is what it handles
  have hlog : t.drain.log.filter (· != .waiting) = (t.handleAll t.pending).log := by
    rw [drain_log, filter_handleAll_log]
  cases call with
  | arrive events => exact ⟨t.pending ++ events, rfl, rfl, rfl⟩
  | elapse time => exact ⟨t.pending, (List.append_nil _).symm, rfl, rfl⟩
  | isDown key => exact ⟨[], rfl, t.drain_keys.trans (hnow _ _), hlog⟩
  | quitRequested => exact ⟨[], rfl, t.drain_keys.trans (hnow _ _), hlog⟩
  | awaitKey =>
    cases hquit : t.quitting with
    | true =>
      have hnone : t.handledBy .awaitKey = [] := by rw [handledBy, hquit, if_pos rfl]
      simp only [hnone, serve, awaitKey_of_quitting hquit]
      exact ⟨t.pending, (List.append_nil _).symm, rfl, rfl⟩
    | false =>
      have hends : ∃ e ∈ t.pending, endsWait t.map e = true :=
        (h rfl).resolve_left (Bool.eq_false_iff.mp hquit)
      obtain ⟨before, event, later, hpending, hbefore, hevent⟩ := split_of_endsWait hends
      rw [handledBy_awaitKey hquit hpending hbefore hevent]
      simp only [serve, awaitKey_split hquit hpending hbefore hevent]
      refine ⟨later, ?_, hnow _ _, t.filter_handleAll_log _⟩
      have harrived : KeyCall.awaitKey.arrived = [] := rfl
      rw [hpending, harrived, List.append_nil, List.append_assoc]
      rfl

theorem map_snd_stamped (time : Nat) (events : List KeyEvent) :
    (events.map (time, ·)).map Prod.snd = events := by
  rw [List.map_map]
  exact List.map_id _

/-- **Nothing is lost, repeated or reordered.** What the calls handle, followed by what they leave
pending, is what was pending and what arrived. -/
theorem history_append_pending {t : TerminalKeys} {calls : List KeyCall} (h : t.NeverBlocks calls) :
    (t.history calls).map Prod.snd ++ (t.serveAll calls).keys.pending =
      t.pending ++ calls.flatMap KeyCall.arrived := by
  induction calls generalizing t with
  | nil => exact (List.append_nil _).symm
  | cons call rest ih =>
    obtain ⟨later, hevents, hkeys, -⟩ := serve_eq h.1
    have hpending : (t.serve call).keys.pending = later := by rw [hkeys]
    rw [history, List.map_append, map_snd_stamped, serveAll, List.append_assoc, ih h.2, hpending,
      ← List.append_assoc, hevents, List.flatMap_cons, List.append_assoc]

/-- **Each handled event without a meaning is reported once, in order,** and nothing else is apart
from the waits. -/
theorem serveAll_log {t : TerminalKeys} {calls : List KeyCall} (h : t.NeverBlocks calls) :
    (t.serveAll calls).log.filter (· != .waiting) =
      (((t.history calls).map Prod.snd).filterMap t.map.unmapped?).map .unmapped := by
  induction calls generalizing t with
  | nil => rfl
  | cons call rest ih =>
    obtain ⟨later, -, hkeys, hlog⟩ := serve_eq h.1
    have hmap : (t.serve call).keys.map = t.map := by
      rw [hkeys]
      exact t.map_handleAll _
    have hrest := ih h.2
    rw [hmap] at hrest
    rw [serveAll, List.filter_append, hlog, hrest, handleAll_log, ← List.map_append,
      ← List.filterMap_append, history, List.map_append, map_snd_stamped]

/-- That the keys are what a history of handled events tells: a quit was asked for if one of the
events asked for it, and the time at a key is that of the last event that pressed it. -/
structure Tells (map : KeyMap) (hold : Nat) (history : List (Nat × KeyEvent)) (t : TerminalKeys) :
    Prop where
  map_eq : t.map = map
  hold_eq : t.hold = hold
  quitting_iff : t.quitting = true ↔ ∃ p ∈ history, p.2.asksQuit = true
  pressed : ∀ (key : HexKey) (time : Nat), t.pressedAt[key.val]? = some (some time) →
    ∃ p ∈ history, p.1 = time ∧ map.keyOf? p.2 = some key
  latest : ∀ p ∈ history, ∀ key : HexKey, map.keyOf? p.2 = some key →
    ∃ time, t.pressedAt[key.val]? = some (some time) ∧ p.1 ≤ time
  past : ∀ p ∈ history, p.1 ≤ t.now

theorem tells_start (map : KeyMap) (hold : Nat) : Tells map hold [] (start map hold) where
  map_eq := rfl
  hold_eq := rfl
  quitting_iff := ⟨nofun, nofun⟩
  pressed := by
    intro key time h
    have hnone : (start map hold).pressedAt[key.val]? = some none :=
      Vector.getElem?_replicate_of_lt key.isLt
    rw [hnone] at h
    cases h
  latest := nofun
  past := nofun

namespace Tells

variable {map : KeyMap} {hold : Nat} {history : List (Nat × KeyEvent)} {t : TerminalKeys}

theorem handle (h : Tells map hold history t) (event : KeyEvent) :
    Tells map hold (history ++ [(t.now, event)]) (t.handle event).keys where
  map_eq := (t.map_handle event).trans h.map_eq
  hold_eq := (t.hold_handle event).trans h.hold_eq
  quitting_iff := by
    rw [quitting_handle, Bool.or_eq_true, h.quitting_iff]
    simp only [List.mem_append, List.mem_singleton, or_and_right, exists_or, exists_eq_left]
  pressed := by
    intro key time hpressed
    rw [pressedAt_handle, h.map_eq] at hpressed
    split at hpressed
    · rename_i hkey
      cases hpressed
      exact ⟨(t.now, event), List.mem_append_right _ List.mem_cons_self, rfl, hkey⟩
    · obtain ⟨p, hp, hmeans⟩ := h.pressed key time hpressed
      exact ⟨p, List.mem_append_left _ hp, hmeans⟩
  latest := by
    intro p hp key hkey
    rw [pressedAt_handle, h.map_eq]
    split
    · -- pressed again just now
      refine ⟨t.now, rfl, ?_⟩
      rcases List.mem_append.mp hp with hearlier | hnew
      · exact h.past p hearlier
      · exact Nat.le_of_eq (congrArg Prod.fst (List.mem_singleton.mp hnew))
    · rename_i hother
      rcases List.mem_append.mp hp with hearlier | hnew
      · exact h.latest p hearlier key hkey
      · rw [List.mem_singleton.mp hnew] at hkey
        exact absurd hkey hother
  past := by
    intro p hp
    rw [now_handle]
    rcases List.mem_append.mp hp with hearlier | hnew
    · exact h.past p hearlier
    · exact Nat.le_of_eq (congrArg Prod.fst (List.mem_singleton.mp hnew))

theorem handleAll (h : Tells map hold history t) (events : List KeyEvent) :
    Tells map hold (history ++ events.map (t.now, ·)) (t.handleAll events).keys := by
  induction events generalizing t history with
  | nil => rwa [List.map_nil, List.append_nil]
  | cons event rest ih =>
    have hrest := ih (h.handle event)
    rw [now_handle, List.append_assoc] at hrest
    exact hrest

/-- Neither time that passes nor what is pending changes what the history tells. -/
theorem later (h : Tells map hold history t) (time : Nat) (pending : List KeyEvent) :
    Tells map hold history { t with now := t.now + time, pending := pending } where
  map_eq := h.map_eq
  hold_eq := h.hold_eq
  quitting_iff := h.quitting_iff
  pressed := h.pressed
  latest := h.latest
  past := fun p hp => Nat.le_add_right_of_le (h.past p hp)

theorem serve (h : Tells map hold history t) {call : KeyCall} (hreturns : t.Returns call) :
    Tells map hold (history ++ (t.handledBy call).map (t.now, ·)) (t.serve call).keys := by
  obtain ⟨later, -, hkeys, -⟩ := serve_eq hreturns
  have hlater := (h.handleAll (t.handledBy call)).later call.elapsed later
  rw [now_handleAll] at hlater
  rw [hkeys]
  exact hlater

theorem serveAll (h : Tells map hold history t) {calls : List KeyCall}
    (hblocks : t.NeverBlocks calls) :
    Tells map hold (history ++ t.history calls) (t.serveAll calls).keys := by
  induction calls generalizing t history with
  | nil => rwa [TerminalKeys.history, List.append_nil]
  | cons call rest ih =>
    have hrest := ih (h.serve hblocks.1) hblocks.2
    rw [List.append_assoc] at hrest
    exact hrest

/-- A key counts as held if one of the events that pressed it is recent enough. -/
theorem isHeld_iff (h : Tells map hold history t) (key : UInt8) :
    t.isHeld key = true ↔ ∃ k : HexKey, key.toNat = k.val ∧
      ∃ p ∈ history, map.keyOf? p.2 = some k ∧ t.now - p.1 < hold := by
  unfold isHeld
  constructor
  · intro hheld
    split at hheld
    · rename_i pressed hat
      obtain ⟨hlt, -⟩ := Vector.getElem?_eq_some_iff.mp hat
      obtain ⟨p, hp, htime, hkey⟩ := h.pressed ⟨key.toNat, hlt⟩ pressed hat
      refine ⟨⟨key.toNat, hlt⟩, rfl, p, hp, hkey, ?_⟩
      rw [htime, ← h.hold_eq]
      exact decide_eq_true_iff.mp hheld
    · cases hheld
  · rintro ⟨k, hk, p, hp, hkey, hrecent⟩
    obtain ⟨time, hat, hle⟩ := h.latest p hp k hkey
    rw [hk, hat, h.hold_eq]
    exact decide_eq_true (by omega)

/-- A question for a key counts what the history tells and what is pending as pressed now. -/
theorem isDown_iff (h : Tells map hold history t) (key : UInt8) :
    (Keypad.isDown t key).answer = true ↔ ∃ k : HexKey, key.toNat = k.val ∧
      ∃ p ∈ history ++ t.pending.map (t.now, ·), map.keyOf? p.2 = some k ∧ t.now - p.1 < hold := by
  have hreturns : t.Returns (.isDown key) := nofun
  have hasked : Tells map hold (history ++ t.pending.map (t.now, ·)) (Keypad.isDown t key).keys :=
    h.serve hreturns
  have hnow : (Keypad.isDown t key).keys.now = t.now :=
    (congrArg now t.drain_keys).trans (t.now_handleAll t.pending)
  have hheld := hasked.isHeld_iff key
  rw [hnow] at hheld
  exact hheld

theorem quitRequested_iff (h : Tells map hold history t) :
    (Keypad.quitRequested t).answer = true ↔
      ∃ e ∈ history.map Prod.snd ++ t.pending, e.asksQuit = true := by
  have hreturns : t.Returns .quitRequested := nofun
  have hasked :
      Tells map hold (history ++ t.pending.map (t.now, ·)) (Keypad.quitRequested t).keys :=
    h.serve hreturns
  have hevents : (history ++ t.pending.map (t.now, ·)).map Prod.snd =
      history.map Prod.snd ++ t.pending := by
    rw [List.map_append, map_snd_stamped]
  rw [← hevents]
  refine Iff.trans hasked.quitting_iff ?_
  constructor
  · rintro ⟨p, hp, hasks⟩
    exact ⟨p.2, List.mem_map_of_mem hp, hasks⟩
  · rintro ⟨e, he, hasks⟩
    obtain ⟨p, hp, rfl⟩ := List.mem_map.mp he
    exact ⟨p, hp, hasks⟩

end Tells

/-- **Every event is handled once, in order, whoever reads it.** Take calls of which none blocks.
The events that they handled, followed by those still pending, are those that arrived, and each
handled one without a meaning was reported once. A question handles all that is pending. A wait
handles nothing once a quit was asked for, and otherwise the events up to the first that ends it,
which settles its answer. A quit counts as asked for exactly if one of the events that arrived asked
for it, and that stays so. And a key counts as held exactly if an event that pressed it was handled
less than the hold ago. -/
theorem each_event_is_handled_once (map : KeyMap) (hold : Nat) {calls : List KeyCall}
    (h : (start map hold).NeverBlocks calls) :
    let session := (start map hold).serveAll calls
    let t := session.keys
    let handled := (start map hold).history calls
    let arrived := calls.flatMap KeyCall.arrived
    (∀ c key, map.key? c = some key ↔
      ∃ earlier later, map = earlier ++ (c, key) :: later ∧ ∀ entry ∈ later, entry.1 ≠ c) ∧
    (handled.map Prod.snd ++ t.pending = arrived ∧
      session.log.filter (· != .waiting) =
        ((handled.map Prod.snd).filterMap map.unmapped?).map .unmapped) ∧
    (∀ key, t.handledBy (.isDown key) = t.pending ∧
      (Keypad.isDown t key).keys = { (t.handleAll t.pending).keys with pending := [] }) ∧
    (t.handledBy .quitRequested = t.pending ∧
      (Keypad.quitRequested t).keys = { (t.handleAll t.pending).keys with pending := [] }) ∧
    (t.quitting = true ↔ ∃ p ∈ handled, p.2.asksQuit = true) ∧
    (t.quitting = true → t.handledBy .awaitKey = [] ∧
      Keypad.awaitKey t = ⟨none, t, [.waiting]⟩) ∧
    (∀ before event later, t.quitting = false → t.pending = before ++ event :: later →
      (∀ e ∈ before, endsWait map e = false) → endsWait map event = true →
      t.handledBy .awaitKey = before ++ [event] ∧
      Keypad.awaitKey t =
        { answer := (map.keyOf? event).map fun key => UInt8.ofNat key.val
          keys := { (t.handleAll (before ++ [event])).keys with pending := later }
          log := .waiting :: (t.handleAll (before ++ [event])).log }) ∧
    ((Keypad.quitRequested t).answer = true ↔ ∃ e ∈ arrived, e.asksQuit = true) ∧
    (∀ more, t.NeverBlocks more → (Keypad.quitRequested t).answer = true →
      (Keypad.quitRequested (t.serveAll more).keys).answer = true) ∧
    (∀ key, (Keypad.isDown t key).answer = true ↔ ∃ k : HexKey, key.toNat = k.val ∧
      ∃ p ∈ handled ++ t.pending.map (t.now, ·),
        map.keyOf? p.2 = some k ∧ t.now - p.1 < hold) := by
  intro session t handled arrived
  have hevents : handled.map Prod.snd ++ t.pending = arrived := history_append_pending h
  have htells : Tells map hold handled t := (tells_start map hold).serveAll h
  have hmap : t.map = map := htells.map_eq
  refine ⟨map.key?_eq_some_iff, ⟨hevents, serveAll_log h⟩, fun key => ⟨rfl, t.drain_keys⟩,
    ⟨rfl, t.drain_keys⟩, htells.quitting_iff, fun hquit => ⟨?_, awaitKey_of_quitting hquit⟩,
    ?_, ?_, ?_, htells.isDown_iff⟩
  · rw [handledBy, hquit, if_pos rfl]
  · intro before event later hquit hpending hbefore hevent
    rw [← hmap] at hbefore hevent ⊢
    exact ⟨handledBy_awaitKey hquit hpending hbefore hevent,
      awaitKey_split hquit hpending hbefore hevent⟩
  · rw [htells.quitRequested_iff, hevents]
  · intro more hmore hasked
    have hafter := history_append_pending hmore
    rw [htells.quitRequested_iff] at hasked
    rw [(htells.serveAll hmore).quitRequested_iff, List.map_append, List.append_assoc, hafter,
      ← List.append_assoc]
    obtain ⟨e, he, hasks⟩ := hasked
    exact ⟨e, List.mem_append_left _ he, hasks⟩

/-- A key is typed in upper case behind two events that mean nothing, and a wait takes it; a
question takes the next; of what then arrives a second wait takes the control-C and no more. -/
theorem each_event_is_handled_once_around_waits :
    let map : KeyMap := [('x', 3), ('q', 4), ('x', 7)]
    let quit : KeyEvent := .character 'c' true
    let typed : KeyEvent := .character 'q' false
    let calls : List KeyCall :=
      [.arrive [.other, .character 'k' false, .character 'X' false, typed], .awaitKey, .elapse 4,
        .isDown 7, .arrive [quit, typed], .elapse 2]
    let t := ((start map 10).serveAll calls).keys
    (start map 10).NeverBlocks calls ∧ t.pending = [quit, typed] ∧
      (start map 10).history calls =
        [(0, .other), (0, .character 'k' false), (0, .character 'X' false), (4, typed)] ∧
      (Keypad.awaitKey t).answer = none ∧ (Keypad.awaitKey t).keys.pending = [typed] ∧
      (Keypad.quitRequested t).answer = true ∧ (Keypad.isDown t 7).answer = true := by
  intro map quit typed calls t
  have hblocks : (start map 10).NeverBlocks calls := by decide
  have hpending : t.pending = [quit, typed] := by decide
  have hhistory : (start map 10).history calls =
      [(0, .other), (0, .character 'k' false), (0, .character 'X' false), (4, typed)] := by decide
  obtain ⟨-, -, -, -, -, -, hwait, hquit, -, hdown⟩ := each_event_is_handled_once map 10 hblocks
  obtain ⟨-, hwaited⟩ := hwait [] quit [typed] (by decide) hpending nofun (by decide)
  refine ⟨hblocks, hpending, hhistory, ?_, ?_, ?_, ?_⟩
  · exact congrArg Reading.answer hwaited
  · exact congrArg (fun waited => waited.keys.pending) hwaited
  · exact hquit.mpr ⟨quit, by decide, rfl⟩
  · exact (hdown 7).mpr ⟨7, rfl, (0, .character 'X' false), by decide, by decide, by decide⟩

end TerminalKeys

end Chip8
