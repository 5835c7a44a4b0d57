import Chip8.Keypad.Scripted
import Chip8.Proofs.Machine.Stepping

/-!
# The pending calls of a session

The calls and returns that a session carries out leave a list of return addresses. `Holds` relates
the call stack to such a list: the slots in use are the list, and what is above them does not
matter. Every action preserves it, so the stack of a session is that of its calls and returns. A
subroutine sees the list of its caller as a prefix that it cannot shorten without returning.
-/

namespace Chip8

namespace CallStack

/-- The slots in use are these addresses, the innermost last. -/
structure Holds (s : CallStack) (addrs : List UInt16) : Prop where
  size_eq : s.size = addrs.length
  bounded : addrs.length ≤ depth
  slots_eq : s.slots.toList.take s.size = addrs

theorem holds_empty : empty.Holds [] where
  size_eq := rfl
  bounded := by decide
  slots_eq := pending_empty

theorem Holds.push {s t : CallStack} {addrs : List UInt16} {addr : UInt16} (h : s.Holds addrs)
    (hp : s.push addr = .ok t) : t.Holds (addrs ++ [addr]) := by
  obtain ⟨hpending, hsize, hdepth⟩ := pending_of_push hp
  have hlength : t.size = (addrs ++ [addr]).length := by
    rw [hsize, h.size_eq, List.length_append, List.length_singleton]
  refine ⟨hlength, hlength ▸ hdepth, ?_⟩
  show t.pending = addrs ++ [addr]
  rw [hpending, pending, h.slots_eq]

theorem Holds.pop {s t : CallStack} {addrs : List UInt16} {addr : UInt16} (h : s.Holds addrs)
    (hp : s.pop = .ok (addr, t)) : t.Holds addrs.dropLast ∧ addrs.getLast? = some addr := by
  obtain ⟨hpending, hsize, hdepth⟩ := pending_of_pop hp
  have haddrs : addrs = t.pending ++ [addr] := by
    rw [← hpending, pending, h.slots_eq]
  subst haddrs
  have hlength : t.size = t.pending.length := (length_pending (by omega)).symm
  rw [List.dropLast_concat, List.getLast?_concat]
  exact ⟨⟨hlength, by omega, rfl⟩, rfl⟩

theorem Holds.push_eq_error_iff {s : CallStack} {addrs : List UInt16} (h : s.Holds addrs)
    (addr : UInt16) (f : Fault) :
    s.push addr = .error f ↔ addrs.length = depth ∧ f = .stackOverflow addr := by
  have hbounded := h.bounded
  rw [CallStack.push_eq_error_iff, h.size_eq]
  constructor
  · rintro ⟨hfull, hf⟩
    exact ⟨by omega, hf⟩
  · rintro ⟨hfull, hf⟩
    exact ⟨by omega, hf⟩

theorem Holds.pop_eq_error_iff {s : CallStack} {addrs : List UInt16} (h : s.Holds addrs)
    (f : Fault) : s.pop = .error f ↔ addrs = [] ∧ f = .stackUnderflow := by
  have hsize : s.size ≤ depth := by
    rw [h.size_eq]
    exact h.bounded
  rw [CallStack.pop_eq_error_iff hsize, h.size_eq, List.length_eq_zero_iff]

end CallStack

/-- What an action may do to the pending calls. -/
inductive CallEvent where
  /-- A call that will return to this address. -/
  | call (back : UInt16)
  | ret
  deriving DecidableEq, Repr

namespace CallEvent

/-- The return addresses after an event, the innermost last. -/
def apply (addrs : List UInt16) : CallEvent → List UInt16
  | .call back => addrs ++ [back]
  | .ret => addrs.dropLast

/-- The event of an instruction in front of the address `back`. -/
def ofInstruction? (back : UInt16) : Instruction → Option CallEvent
  | .call _ => some (.call back)
  | .ret => some .ret
  | _ => none

theorem ofInstruction?_of_other {i : Instruction} (back : UInt16) (hc : ¬ ∃ addr, i = .call addr)
    (hr : i ≠ .ret) : ofInstruction? back i = none := by
  cases i with
  | call addr => exact absurd ⟨addr, rfl⟩ hc
  | ret => exact absurd rfl hr
  | _ => rfl

end CallEvent

namespace Machine

variable {κ ρ : Type}

/-- Of all instructions, calls and returns alone change the stack. -/
theorem stackAfter_of_other {m : Machine κ ρ} {i : Instruction} (hc : ¬ ∃ addr, i = .call addr)
    (hr : i ≠ .ret) : m.stackAfter i = m.cpu.stack := by
  cases i with
  | call addr => exact absurd ⟨addr, rfl⟩ hc
  | ret => exact absurd rfl hr
  | _ => rfl

variable [Keypad κ] [RandomSource ρ]

/-- The calls and returns that an action carries out: a step whose word is one and that proceeds. A
call returns to the word behind it. -/
def callEvents (m : Machine κ ρ) : Action → List CallEvent
  | .step =>
    if m.step.outcome = .proceeds then
      ((Instruction.ofWord? m.nextWord).bind (CallEvent.ofInstruction? (m.cpu.pc + 2))).toList
    else []
  | _ => []

/-- The return addresses that the calls and returns of a session leave pending. -/
def pendingCalls (m : Machine κ ρ) (session : List Action) : List UInt16 :=
  (history callEvents m session).foldl CallEvent.apply []

variable {m : Machine κ ρ} {addrs : List UInt16}

theorem callEvents_of_proceeds {i : Instruction} (ho : m.step.outcome = .proceeds)
    (hw : Instruction.ofWord? m.nextWord = some i) :
    m.callEvents .step = (CallEvent.ofInstruction? (m.cpu.pc + 2) i).toList := by
  show (if m.step.outcome = .proceeds then _ else []) = _
  rw [if_pos ho, hw]
  rfl

theorem callEvents_of_refused (ho : m.step.outcome ≠ .proceeds) : m.callEvents .step = [] :=
  if_neg ho

theorem step_call (h : m.cpu.stack.Holds addrs) {addr : UInt16}
    (hw : Instruction.ofWord? m.nextWord = some (.call addr)) :
    (addrs.length = 16 ∧ m.step.outcome = .faults (.stackOverflow addr) ∧
        m.step.machine.cpu.stack = m.cpu.stack) ∨
      (addrs.length ≠ 16 ∧ m.step.outcome = .proceeds ∧
        m.step.machine.cpu.stack.Holds (addrs ++ [m.cpu.pc + 2])) := by
  rw [step_of_known hw]
  cases hp : m.fetched.cpu.stack.push m.fetched.cpu.pc with
  | error f =>
    refine .inl ⟨((h.push_eq_error_iff _ f).mp hp).1, ?_, ?_⟩
    · simp only [ending, hp]
    · simp only [machineAfter, cpuAfter, stackAfter, hp]
      rfl
  | ok stack =>
    refine .inr ⟨fun hfull => ?_, ?_, ?_⟩
    · rw [fetched_stack, (h.push_eq_error_iff _ _).mpr ⟨hfull, rfl⟩] at hp
      cases hp
    · simp only [ending, hp]
    · simp only [machineAfter, cpuAfter, stackAfter, hp]
      exact h.push hp

theorem step_ret (h : m.cpu.stack.Holds addrs)
    (hw : Instruction.ofWord? m.nextWord = some .ret) :
    (addrs = [] ∧ m.step.outcome = .faults .stackUnderflow ∧
        m.step.machine.cpu.stack = m.cpu.stack) ∨
      (addrs ≠ [] ∧ m.step.outcome = .proceeds ∧
        m.step.machine.cpu.stack.Holds addrs.dropLast ∧
        addrs.getLast? = some m.step.machine.cpu.pc) := by
  rw [step_of_known hw]
  cases hp : m.fetched.cpu.stack.pop with
  | error f =>
    obtain ⟨hempty, rfl⟩ := (h.pop_eq_error_iff f).mp hp
    refine .inl ⟨hempty, ?_, ?_⟩
    · simp only [ending, hp]
    · simp only [machineAfter, cpuAfter, stackAfter, hp]
      rfl
  | ok popped =>
    obtain ⟨addr, stack⟩ := popped
    have hpop := h.pop hp
    refine .inr ⟨fun hempty => ?_, ?_, ?_, ?_⟩
    · rw [fetched_stack, (h.pop_eq_error_iff _).mpr ⟨hempty, rfl⟩] at hp
      cases hp
    · simp only [ending, hp]
    · simp only [machineAfter, cpuAfter, stackAfter, hp]
      exact hpop.1
    · simp only [machineAfter, cpuAfter, pcAfter, hp]
      exact hpop.2

theorem step_holds (h : m.cpu.stack.Holds addrs) :
    m.step.machine.cpu.stack.Holds ((m.callEvents .step).foldl CallEvent.apply addrs) := by
  cases hw : Instruction.ofWord? m.nextWord with
  | none =>
    have ho : m.step.outcome ≠ .proceeds := by
      rw [step_of_unknown hw]
      nofun
    rw [callEvents_of_refused ho, step_of_unknown hw]
    exact h
  | some i =>
    by_cases hc : ∃ addr, i = .call addr
    · obtain ⟨addr, rfl⟩ := hc
      rcases step_call h hw with ⟨-, ho, hs⟩ | ⟨-, ho, hs⟩
      · rw [callEvents_of_refused (by rw [ho]; nofun), hs]
        exact h
      · rw [callEvents_of_proceeds ho hw]
        exact hs
    by_cases hr : i = .ret
    · subst hr
      rcases step_ret h hw with ⟨-, ho, hs⟩ | ⟨-, ho, hs, -⟩
      · rw [callEvents_of_refused (by rw [ho]; nofun), hs]
        exact h
      · rw [callEvents_of_proceeds ho hw]
        exact hs
    -- neither: there is no event whether the step proceeds or not, and the stack is as before
    have hnone : m.callEvents .step = [] := by
      by_cases ho : m.step.outcome = .proceeds
      · rw [callEvents_of_proceeds ho hw, CallEvent.ofInstruction?_of_other _ hc hr]
        rfl
      · exact callEvents_of_refused ho
    rw [hnone, step_of_known hw]
    show (m.fetched.stackAfter i).Holds addrs
    rw [stackAfter_of_other hc hr]
    exact h

/-- The stack after an action holds what the events of the action make of the addresses before. -/
theorem act_holds (h : m.cpu.stack.Holds addrs) (a : Action) :
    (m.act a).machine.cpu.stack.Holds ((m.callEvents a).foldl CallEvent.apply addrs) := by
  cases a with
  | load source =>
    show (m.loadFrom source).machine.cpu.stack.Holds addrs
    rw [loadFrom_cpu]
    exact h
  | step => exact step_holds h
  | tick =>
    show m.tick.machine.cpu.stack.Holds addrs
    rw [tick_cpu]
    exact h

/-- The run lemma: what a session's calls and returns make of the addresses, the stack holds. -/
theorem after_holds (h : m.cpu.stack.Holds addrs) (session : List Action) :
    (m.after session).cpu.stack.Holds
      ((history callEvents m session).foldl CallEvent.apply addrs) := by
  induction session generalizing m addrs with
  | nil => exact h
  | cons a rest ih =>
    rw [history, List.foldl_append]
    exact ih (act_holds h a)

/-- An action adds one address, takes one off, or leaves the pending calls alone. -/
theorem callEvents_cases (m : Machine κ ρ) (a : Action) :
    m.callEvents a = [] ∨ (∃ back, m.callEvents a = [.call back]) ∨
      (a = .step ∧ Instruction.ofWord? m.nextWord = some .ret ∧ m.callEvents a = [.ret]) := by
  cases a with
  | load source => exact .inl rfl
  | tick => exact .inl rfl
  | step =>
    by_cases ho : m.step.outcome = .proceeds
    · cases hw : Instruction.ofWord? m.nextWord with
      | none =>
        rw [step_of_unknown hw] at ho
        cases ho
      | some i =>
        rw [callEvents_of_proceeds ho hw]
        cases i with
        | call addr => exact .inr (.inl ⟨_, rfl⟩)
        | ret => exact .inr (.inr ⟨rfl, rfl, rfl⟩)
        | _ => exact .inl rfl
    · exact .inl (callEvents_of_refused ho)

/-- Below a subroutine its caller's addresses stay as they are, until a return at the subroutine's
own level uncovers them. -/
theorem act_above {base extra : List UInt16} {back : UInt16}
    (h : m.cpu.stack.Holds (base ++ back :: extra)) (a : Action) :
    (∃ extra', (m.act a).machine.cpu.stack.Holds (base ++ back :: extra')) ∨
      (extra = [] ∧ a = .step ∧ Instruction.ofWord? m.nextWord = some .ret ∧
        (m.act a).machine.cpu.stack.Holds base) := by
  have hact := act_holds h a
  rcases callEvents_cases m a with he | ⟨addr, he⟩ | ⟨ha, hw, he⟩
  · rw [he] at hact
    exact .inl ⟨extra, hact⟩
  · rw [he] at hact
    refine .inl ⟨extra ++ [addr], ?_⟩
    simpa [CallEvent.apply] using hact
  · rw [he] at hact
    -- the subroutine itself returns, or a call that was made inside it does
    rcases List.eq_nil_or_concat extra with rfl | ⟨front, last, rfl⟩
    · refine .inr ⟨rfl, ha, hw, ?_⟩
      simpa [CallEvent.apply] using hact
    · refine .inl ⟨front, ?_⟩
      have hdrop : (base ++ back :: (front ++ [last])).dropLast = base ++ back :: front := by
        rw [← List.cons_append, ← List.append_assoc, List.dropLast_concat]
      simpa [CallEvent.apply, hdrop] using hact

/-- While the level of the caller is not reached again, its addresses stay as they are. -/
theorem after_above {base extra : List UInt16} {back : UInt16}
    (h : m.cpu.stack.Holds (base ++ back :: extra)) (session : List Action)
    (hlevel : ∀ s, s <+: session → (m.after s).cpu.stack.size ≠ base.length) :
    ∃ extra', (m.after session).cpu.stack.Holds (base ++ back :: extra') := by
  induction session generalizing m extra with
  | nil => exact ⟨extra, h⟩
  | cons a rest ih =>
    rcases act_above h a with ⟨extra', ha⟩ | ⟨-, -, -, ha⟩
    · refine ih ha fun s hs => ?_
      exact hlevel (a :: s) (List.cons_prefix_cons.mpr ⟨rfl, hs⟩)
    · have hone : [a] <+: a :: rest := List.cons_prefix_cons.mpr ⟨rfl, List.nil_prefix⟩
      exact absurd ha.size_eq (hlevel [a] hone)

/-- The step that reaches the caller's level again is a return, to the address behind the call. -/
theorem step_back {base extra : List UInt16} {back : UInt16}
    (h : m.cpu.stack.Holds (base ++ back :: extra))
    (hlevel : m.step.machine.cpu.stack.size = base.length) :
    m.step.outcome = .proceeds ∧ m.step.machine.cpu.pc = back := by
  -- as long as the address behind the call is still there, the stack is too high
  rcases act_above h .step with ⟨extra', ha⟩ | ⟨rfl, -, hw, -⟩
  · have hsize : m.step.machine.cpu.stack.size = (base ++ back :: extra').length := ha.size_eq
    rw [List.length_append, List.length_cons] at hsize
    omega
  · rcases step_ret h hw with ⟨hempty, -⟩ | ⟨-, ho, -, hlast⟩
    · simp at hempty
    · rw [List.getLast?_concat] at hlast
      exact ⟨ho, (Option.some.inj hlast).symm⟩

/-- **The stack of a session is that of its calls and returns.** At every point the slots in use are
the pending return addresses; a call is refused exactly when there are sixteen of them and a return
exactly when there are none, and a return goes on at the address it takes off. So whatever happens
in between, the first step that is back at the level of a call goes on behind it. -/
theorem stack_holds_pendingCalls (keys : κ) (random : ρ) (session : List Action) :
    let m := (fresh keys random).after session
    let addrs := (fresh keys random).pendingCalls session
    (m.cpu.stack.size = addrs.length ∧ addrs.length ≤ 16 ∧
      m.cpu.stack.slots.toList.take m.cpu.stack.size = addrs) ∧
    (∀ addr, Instruction.ofWord? m.nextWord = some (.call addr) →
      (m.step.outcome = .faults (.stackOverflow addr) ↔ addrs.length = 16) ∧
      (m.step.outcome = .proceeds ↔ addrs.length ≠ 16)) ∧
    (Instruction.ofWord? m.nextWord = some .ret →
      (m.step.outcome = .faults .stackUnderflow ↔ addrs = []) ∧
      (m.step.outcome = .proceeds ↔ addrs ≠ []) ∧
      (m.step.outcome = .proceeds → addrs.getLast? = some m.step.machine.cpu.pc)) ∧
    (∀ addr between, Instruction.ofWord? m.nextWord = some (.call addr) →
      m.step.outcome = .proceeds →
      (∀ s, s <+: between → (m.step.machine.after s).cpu.stack.size ≠ m.cpu.stack.size) →
      ((m.step.machine.after between).step.machine).cpu.stack.size = m.cpu.stack.size →
      (m.step.machine.after between).step.outcome = .proceeds ∧
        (m.step.machine.after between).step.machine.cpu.pc = m.cpu.pc + 2) := by
  intro m addrs
  have h : m.cpu.stack.Holds addrs := after_holds CallStack.holds_empty session
  refine ⟨⟨h.size_eq, h.bounded, h.slots_eq⟩, fun addr hw => ?_, fun hw => ?_,
    fun addr between hw ho hbetween hback => ?_⟩
  · rcases step_call h hw with ⟨hfull, ho, -⟩ | ⟨hfree, ho, -⟩
    · simp [ho, hfull]
    · simp [ho, hfree]
  · rcases step_ret h hw with ⟨hempty, ho, -⟩ | ⟨hsome, ho, -, hlast⟩
    · simp [ho, hempty]
    · simp [ho, hsome, hlast]
  · rcases step_call h hw with ⟨-, hrefused, -⟩ | ⟨-, -, hinside⟩
    · rw [ho] at hrefused
      cases hrefused
    · rw [h.size_eq] at hbetween hback
      obtain ⟨extra, habove⟩ := after_above hinside between hbetween
      exact step_back habove hback

/-- Two calls, one of them inside the other, and the return of the inner one. -/
example :
    (fresh (⟨[], [], 0, none⟩ : ScriptedKeys) (⟨[], 0⟩ : ScriptedRandom)).pendingCalls
      (.load (.ofBytes [0x22, 0x04, 0x00, 0x00, 0x22, 0x08, 0x00, 0x00, 0x00, 0xee]) ::
        List.replicate 3 .step) = [0x202] := by
  decide +kernel

end Machine

end Chip8
