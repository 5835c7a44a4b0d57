import Chip8.Keypad.Scripted
import Chip8.Proofs.Instruction.Encoding
import Chip8.Proofs.Machine.Stepping

/-!
# What a session takes from its devices

Random bytes and awaited keys are handed out in the order of their scripts, one to each instruction
that asks, and to no other. So what a session has taken is the beginning of each script, and what it
has not taken it cannot have seen: with other numbers and keys behind that beginning it goes on in
just the same way (`withScripts`).
-/

namespace Chip8

namespace RandomSource

variable {ρ : Type} [RandomSource ρ]

/-- A source that has handed out some numbers. -/
def drop (r : ρ) : Nat → ρ
  | 0 => r
  | n + 1 => drop (next r).2 n

/-- The number that a source hands out after `j` others. -/
def number (r : ρ) (j : Nat) : UInt32 :=
  (next (drop r j)).1

theorem drop_drop (r : ρ) (n j : Nat) : drop (drop r n) j = drop r (n + j) := by
  induction n generalizing r with
  | zero => rw [drop, Nat.zero_add]
  | succ n ih => rw [drop, ih, Nat.succ_add, drop]

theorem number_drop (r : ρ) (n j : Nat) : number (drop r n) j = number r (n + j) := by
  rw [number, number, drop_drop]

end RandomSource

open RandomSource (drop number drop_drop number_drop)

/-- A random byte for a register: the mask of the instruction, and what the register holds then. -/
structure MaskedByte where
  mask : UInt8
  held : UInt8
  deriving DecidableEq, Repr

/-- The bytes are those of the numbers of a source, in order, each behind its mask. -/
def DrawnFrom {ρ : Type} [RandomSource ρ] (r : ρ) (bytes : List MaskedByte) : Prop :=
  ∀ j, (hj : j < bytes.length) → bytes[j].held = (number r j).toUInt8 &&& bytes[j].mask

theorem DrawnFrom.append {ρ : Type} [RandomSource ρ] {r : ρ} {first second : List MaskedByte}
    (h₁ : DrawnFrom r first) (h₂ : DrawnFrom (drop r first.length) second) :
    DrawnFrom r (first ++ second) := by
  intro j hj
  rw [List.length_append] at hj
  rcases Nat.lt_or_ge j first.length with hlt | hge
  · rw [List.getElem_append_left hlt]
    exact h₁ j hlt
  · have hrest := h₂ (j - first.length) (by omega)
    rw [number_drop, Nat.add_sub_cancel' hge] at hrest
    rw [List.getElem_append_right hge]
    exact hrest

/-- An instruction that waited for a key: how it ended, and what its register holds then. -/
structure KeyWait where
  outcome : Outcome
  held : UInt8
  deriving DecidableEq, Repr

/-- The keys of the waits that went on. -/
def KeyWait.taken (waits : List KeyWait) : List UInt8 :=
  (waits.filter (·.outcome = .proceeds)).map (·.held)

theorem KeyWait.taken_append (first second : List KeyWait) :
    taken (first ++ second) = taken first ++ taken second := by
  rw [taken, List.filter_append, List.map_append]
  rfl

namespace ScriptedKeys

theorem queue_enqueue (s : ScriptedKeys) (batches : List (List UInt8)) :
    (batches.foldl enqueue s).queue = s.queue ++ batches.flatten := by
  induction batches generalizing s with
  | nil => exact (List.append_nil _).symm
  | cons batch rest ih =>
    rw [List.foldl_cons, ih, List.flatten_cons, ← List.append_assoc]
    rfl

theorem awaitKey_of_empty {s : ScriptedKeys} (h : s.queue = []) :
    Keypad.awaitKey s = ⟨none, s, []⟩ := by
  simp only [Keypad.awaitKey, h]

theorem awaitKey_of_queued {s : ScriptedKeys} {key : UInt8} {rest : List UInt8}
    (h : s.queue = key :: rest) :
    Keypad.awaitKey s = ⟨some key, { s with queue := rest }, []⟩ := by
  simp only [Keypad.awaitKey, h]

end ScriptedKeys

namespace Machine

variable {κ ρ : Type} [Keypad κ] [RandomSource ρ]

/-- The random bytes that an action draws. -/
def randomBytes (m : Machine κ ρ) : Action → List MaskedByte
  | .step =>
    match Instruction.ofWord? m.nextWord with
    | some (.random x mask) => [⟨mask, m.step.machine.cpu.v.get x⟩]
    | _ => []
  | _ => []

/-- The waits for a key that an action makes. -/
def keyWaits (m : Machine κ ρ) : Action → List KeyWait
  | .step =>
    match Instruction.ofWord? m.nextWord with
    | some (.awaitKey x) => [⟨m.step.outcome, m.step.machine.cpu.v.get x⟩]
    | _ => []
  | _ => []

end Machine

namespace Instruction

/-- How many random bytes an instruction draws. -/
def draws : Instruction → Nat
  | .random _ _ => 1
  | _ => 0

/-- How many keys an instruction waits for. -/
def waits : Instruction → Nat
  | .awaitKey _ => 1
  | _ => 0

end Instruction

namespace Machine

section Counts

variable {κ ρ : Type} [Keypad κ] [RandomSource ρ] {m : Machine κ ρ} {i : Instruction}

theorem length_randomBytes (hw : Instruction.ofWord? m.nextWord = some i) :
    (m.randomBytes .step).length = i.draws := by
  cases i with
  | random x mask => simp only [randomBytes, hw]; rfl
  | _ => simp only [randomBytes, hw]; rfl

theorem length_keyWaits (hw : Instruction.ofWord? m.nextWord = some i) :
    (m.keyWaits .step).length = i.waits := by
  cases i with
  | awaitKey x => simp only [keyWaits, hw]; rfl
  | _ => simp only [keyWaits, hw]; rfl

end Counts

variable {ρ : Type} [RandomSource ρ]

/-- What an action takes from the devices: nothing, a random byte, a key, or a quit. -/
inductive TakenBy (m : Machine ScriptedKeys ρ) (a : Action) : Prop where
  | nothing (bytes : m.randomBytes a = []) (waits : m.keyWaits a = [])
      (keys : (m.act a).machine.keys = m.keys) (random : (m.act a).machine.random = m.random)
  | byte (mask : UInt8)
      (bytes : m.randomBytes a = [⟨mask, (number m.random 0).toUInt8 &&& mask⟩])
      (waits : m.keyWaits a = []) (keys : (m.act a).machine.keys = m.keys)
      (random : (m.act a).machine.random = drop m.random 1)
  | key (key : UInt8) (rest : List UInt8) (queue : m.keys.queue = key :: rest)
      (bytes : m.randomBytes a = []) (waits : m.keyWaits a = [⟨.proceeds, key⟩])
      (keys : (m.act a).machine.keys = { m.keys with queue := rest })
      (random : (m.act a).machine.random = m.random)
  | quit (held : UInt8) (queue : m.keys.queue = []) (bytes : m.randomBytes a = [])
      (waits : m.keyWaits a = [⟨.quits, held⟩]) (keys : (m.act a).machine.keys = m.keys)
      (random : (m.act a).machine.random = m.random)

variable {m : Machine ScriptedKeys ρ}

theorem takenBy_random {x mask : UInt8}
    (hw : Instruction.ofWord? m.nextWord = some (.random x mask)) : m.TakenBy .step := by
  refine .byte mask ?_ ?_ ?_ ?_
  · simp only [randomBytes, hw, step_of_known hw]
    exact congrArg (fun b => [MaskedByte.mk mask b]) (Registers.get_set_self _ x _)
  · simp only [keyWaits, hw]
  · show m.step.machine.keys = m.keys
    rw [step_of_known hw]
    rfl
  · show m.step.machine.random = drop m.random 1
    rw [step_of_known hw]
    rfl

/-- How a wait for a key ends is told by the queue. -/
theorem wait_outcome {x : UInt8} (hw : Instruction.ofWord? m.nextWord = some (.awaitKey x)) :
    m.step.outcome = if m.keys.queue = [] then .quits else .proceeds := by
  rw [step_of_known hw]
  cases hq : m.keys.queue with
  | nil =>
    simp only [ending, fetched_keys, ScriptedKeys.awaitKey_of_empty hq]
    rfl
  | cons key rest =>
    simp only [ending, fetched_keys, ScriptedKeys.awaitKey_of_queued hq]
    rfl

theorem takenBy_awaitKey {x : UInt8} (hw : Instruction.ofWord? m.nextWord = some (.awaitKey x)) :
    m.TakenBy .step := by
  have hbytes : m.randomBytes .step = [] := by simp only [randomBytes, hw]
  have hwaits : m.keyWaits .step = [⟨m.step.outcome, m.step.machine.cpu.v.get x⟩] := by
    simp only [keyWaits, hw]
  have ho := wait_outcome hw
  have hrandom : (m.act .step).machine.random = m.random := by
    show m.step.machine.random = m.random
    rw [step_of_known hw]
    rfl
  have hkeys : (m.act .step).machine.keys = (Keypad.awaitKey m.keys).keys := by
    show m.step.machine.keys = _
    rw [step_of_known hw]
    rfl
  cases hq : m.keys.queue with
  | nil =>
    rw [if_pos hq] at ho
    rw [ScriptedKeys.awaitKey_of_empty hq] at hkeys
    rw [ho] at hwaits
    exact .quit (m.step.machine.cpu.v.get x) hq hbytes hwaits hkeys hrandom
  | cons key rest =>
    have hheld : m.step.machine.cpu.v.get x = key := by
      simp only [step_of_known hw, machineAfter, cpuAfter, registersAfter, fetched_keys,
        ScriptedKeys.awaitKey_of_queued hq, Registers.get_set_self]
    have hsome : m.keys.queue ≠ [] := by
      rw [hq]
      exact List.cons_ne_nil key rest
    rw [if_neg hsome] at ho
    rw [ScriptedKeys.awaitKey_of_queued hq] at hkeys
    rw [ho, hheld] at hwaits
    exact .key key rest hq hbytes hwaits hkeys hrandom

theorem takenBy_other {i : Instruction} (hw : Instruction.ofWord? m.nextWord = some i)
    (hdraws : i.draws = 0) (hwaits : i.waits = 0) : m.TakenBy .step := by
  have hkeys : m.fetched.keysAfter i = m.keys := by
    cases i with
    | skip condition => cases condition <;> rfl
    | awaitKey x => cases hwaits
    | _ => rfl
  have hrandom : m.fetched.randomAfter i = m.random := by
    cases i with
    | random x mask => cases hdraws
    | _ => rfl
  refine .nothing ?_ ?_ ?_ ?_
  · exact List.length_eq_zero_iff.mp ((length_randomBytes hw).trans hdraws)
  · exact List.length_eq_zero_iff.mp ((length_keyWaits hw).trans hwaits)
  · show m.step.machine.keys = m.keys
    rw [step_of_known hw]
    exact hkeys
  · show m.step.machine.random = m.random
    rw [step_of_known hw]
    exact hrandom

theorem takenBy (m : Machine ScriptedKeys ρ) (a : Action) : m.TakenBy a := by
  cases a with
  | load source =>
    have hload := m.loadFrom_machine source
    refine .nothing rfl rfl ?_ ?_
    · show (m.loadFrom source).machine.keys = m.keys
      rw [hload]
    · show (m.loadFrom source).machine.random = m.random
      rw [hload]
  | tick =>
    refine .nothing rfl rfl ?_ ?_
    · show m.tick.machine.keys = m.keys
      rw [tick_machine]
    · show m.tick.machine.random = m.random
      rw [tick_machine]
  | step =>
    cases hw : Instruction.ofWord? m.nextWord with
    | none =>
      refine .nothing ?_ ?_ ?_ ?_
      · simp only [randomBytes, hw]
      · simp only [keyWaits, hw]
      · show m.step.machine.keys = m.keys
        rw [step_of_unknown hw]
        rfl
      · show m.step.machine.random = m.random
        rw [step_of_unknown hw]
        rfl
    | some i =>
      cases i with
      | random x mask => exact takenBy_random hw
      | awaitKey x => exact takenBy_awaitKey hw
      | _ => exact takenBy_other hw rfl rfl

/-- The random numbers drawn so far are as many as the bytes, and the bytes are theirs. -/
theorem act_randomBytes (m : Machine ScriptedKeys ρ) (a : Action) :
    (m.act a).machine.random = drop m.random (m.randomBytes a).length ∧
      DrawnFrom m.random (m.randomBytes a) := by
  have hnone : DrawnFrom m.random [] := fun j hj => absurd hj (Nat.not_lt_zero j)
  cases m.takenBy a with
  | nothing bytes waits keys random => exact bytes ▸ ⟨random, hnone⟩
  | byte mask bytes waits keys random =>
    rw [bytes]
    refine ⟨random, fun j hj => ?_⟩
    obtain rfl : j = 0 := Nat.lt_one_iff.mp hj
    rfl
  | key key rest queue bytes waits keys random => exact bytes ▸ ⟨random, hnone⟩
  | quit held queue bytes waits keys random => exact bytes ▸ ⟨random, hnone⟩

/-- The keys taken come off the front of the queue. -/
theorem act_queue (m : Machine ScriptedKeys ρ) (a : Action) :
    m.keys.queue = KeyWait.taken (m.keyWaits a) ++ (m.act a).machine.keys.queue := by
  cases m.takenBy a with
  | nothing bytes waits keys random => rw [waits, keys]; rfl
  | byte mask bytes waits keys random => rw [waits, keys]; rfl
  | key key rest queue bytes waits keys random => rw [waits, keys, queue]; rfl
  | quit held queue bytes waits keys random => rw [waits, keys]; rfl

/-- The run lemmas: what a session has drawn and taken. -/
theorem after_randomBytes (m : Machine ScriptedKeys ρ) (session : List Action) :
    (m.after session).random = drop m.random (history randomBytes m session).length ∧
      DrawnFrom m.random (history randomBytes m session) := by
  induction session generalizing m with
  | nil => exact ⟨rfl, fun j hj => absurd hj (Nat.not_lt_zero j)⟩
  | cons a rest ih =>
    obtain ⟨hrandom, hbytes⟩ := m.act_randomBytes a
    obtain ⟨hlater, hrest⟩ := ih (m.act a).machine
    rw [hrandom] at hlater hrest
    refine ⟨?_, hbytes.append hrest⟩
    rw [history, List.length_append, ← drop_drop]
    exact hlater

theorem after_queue (m : Machine ScriptedKeys ρ) (session : List Action) :
    m.keys.queue =
      KeyWait.taken (history keyWaits m session) ++ (m.after session).keys.queue := by
  induction session generalizing m with
  | nil => rfl
  | cons a rest ih =>
    rw [history, KeyWait.taken_append, List.append_assoc]
    exact (m.act_queue a).trans (congrArg _ (ih (m.act a).machine))

/-- The machine with other scripts, of queued keys and of random numbers. -/
def withScripts (m : Machine ScriptedKeys ρ) (queue : List UInt8) (random : ρ) :
    Machine ScriptedKeys ρ :=
  { m with keys := { m.keys with queue := queue }, random := random }

/-- Other scripts that agree with those of a machine on the low bytes of `k` numbers and on `q`
queued keys. -/
structure ScriptsAgree (m : Machine ScriptedKeys ρ) (queue : List UInt8) (random : ρ)
    (k q : Nat) : Prop where
  bytes : ∀ j < k, (number random j).toUInt8 = (number m.random j).toUInt8
  queued : q ≤ m.keys.queue.length
  enough : q ≤ queue.length
  keys : queue.take q = m.keys.queue.take q

variable {queue : List UInt8} {random : ρ} {k q : Nat}

/-- A wait that both scripts have a key for finds the same one in both. -/
theorem ScriptsAgree.front (h : m.ScriptsAgree queue random k q) (hq : 1 ≤ q) :
    ∃ key rest rest', m.keys.queue = key :: rest ∧ queue = key :: rest' := by
  obtain ⟨n, rfl⟩ := Nat.exists_eq_add_of_le' hq
  have hqueued := h.queued
  have henough := h.enough
  have hkeys := h.keys
  cases hm : m.keys.queue with
  | nil =>
    rw [hm] at hqueued
    cases hqueued
  | cons key rest =>
    cases queue with
    | nil => cases henough
    | cons key' rest' =>
      rw [hm, List.take_succ_cons, List.take_succ_cons] at hkeys
      exact ⟨key, rest, rest', rfl, congrArg (· :: rest') (List.cons.inj hkeys).1⟩

/-- What an instruction does with other scripts is what it does, while they agree for as long as it
asks. -/
theorem instruction_withScripts (h : m.ScriptsAgree queue random k q) {i : Instruction}
    (hk : i.draws ≤ k) (hq : i.waits ≤ q) :
    (m.withScripts queue random).machineAfter i =
        (m.machineAfter i).withScripts (queue.drop i.waits) (drop random i.draws) ∧
      (m.withScripts queue random).ending i = m.ending i ∧
      (m.withScripts queue random).logOf i = m.logOf i := by
  cases i with
  | random x mask =>
    have hbyte : (randomByte (m.withScripts queue random).random).1 = (randomByte m.random).1 :=
      h.bytes 0 hk
    refine ⟨?_, rfl, rfl⟩
    simp only [machineAfter, cpuAfter, registersAfter, hbyte]
    rfl
  | awaitKey x =>
    obtain ⟨key, rest, rest', hm, rfl⟩ := h.front hq
    have hone := ScriptedKeys.awaitKey_of_queued hm
    have hother : Keypad.awaitKey (m.withScripts (key :: rest') random).keys =
        ⟨some key, { m.keys with queue := rest' }, []⟩ := rfl
    refine ⟨?_, ?_, ?_⟩
    · simp only [machineAfter, cpuAfter, registersAfter, keysAfter, hone, hother]
      rfl
    · simp only [ending, hone, hother]
    · simp only [logOf, hone, hother]
  | skip condition => cases condition <;> exact ⟨rfl, rfl, rfl⟩
  | _ => exact ⟨rfl, rfl, rfl⟩

theorem step_withScripts (h : m.ScriptsAgree queue random k q)
    (hk : (m.randomBytes .step).length ≤ k) (hq : (m.keyWaits .step).length ≤ q) :
    (m.withScripts queue random).step =
      ⟨m.step.outcome,
        m.step.machine.withScripts (queue.drop (m.keyWaits .step).length)
          (drop random (m.randomBytes .step).length),
        m.step.log⟩ := by
  have hfetched : (m.withScripts queue random).fetched = m.fetched.withScripts queue random := rfl
  cases hw : Instruction.ofWord? m.nextWord with
  | none =>
    have hw' : Instruction.ofWord? (m.withScripts queue random).nextWord = none := hw
    simp only [randomBytes, keyWaits, hw, step_of_unknown hw, step_of_unknown hw']
    rfl
  | some i =>
    have hw' : Instruction.ofWord? (m.withScripts queue random).nextWord = some i := hw
    rw [length_randomBytes hw] at hk ⊢
    rw [length_keyWaits hw] at hq ⊢
    have hagree : m.fetched.ScriptsAgree queue random k q := ⟨h.bytes, h.queued, h.enough, h.keys⟩
    obtain ⟨hmachine, hending, hlog⟩ := instruction_withScripts hagree hk hq
    rw [step_of_known hw, step_of_known hw', hfetched, hmachine, hending, hlog]
    rfl

theorem act_withScripts (h : m.ScriptsAgree queue random k q) {a : Action}
    (hk : (m.randomBytes a).length ≤ k) (hq : (m.keyWaits a).length ≤ q) :
    (m.withScripts queue random).act a =
      ⟨(m.act a).outcome,
        (m.act a).machine.withScripts (queue.drop (m.keyWaits a).length)
          (drop random (m.randomBytes a).length),
        (m.act a).log⟩ := by
  cases a with
  | step => exact step_withScripts h hk hq
  | load source =>
    have hmemory : (m.withScripts queue random).memory = m.memory := rfl
    show (m.withScripts queue random).loadFrom source =
      ⟨(m.loadFrom source).outcome, (m.loadFrom source).machine.withScripts queue random,
        (m.loadFrom source).log⟩
    unfold loadFrom
    rw [hmemory]
    cases m.memory.loadFrom source <;> rfl
  | tick =>
    have hcpu : (m.withScripts queue random).cpu = m.cpu := rfl
    show (m.withScripts queue random).tick =
      ⟨m.tick.outcome, m.tick.machine.withScripts queue random, m.tick.log⟩
    unfold tick
    rw [hcpu]
    rcases m.cpu.tick with ⟨_ | _, cpu⟩ <;> rfl

/-- After an action the scripts agree for as much less as the action has asked. -/
theorem ScriptsAgree.act (h : m.ScriptsAgree queue random k q) {a : Action}
    (hq : (m.keyWaits a).length ≤ q) :
    (m.act a).machine.ScriptsAgree (queue.drop (m.keyWaits a).length)
      (drop random (m.randomBytes a).length) (k - (m.randomBytes a).length)
      (q - (m.keyWaits a).length) := by
  cases m.takenBy a with
  | nothing bytes waits keys hrandom =>
    rw [bytes, waits]
    refine ⟨?_, ?_, h.enough, ?_⟩
    · rw [hrandom]
      exact h.bytes
    · rw [keys]
      exact h.queued
    · rw [keys]
      exact h.keys
  | byte mask bytes waits keys hrandom =>
    rw [bytes, waits]
    refine ⟨fun j hj => ?_, ?_, h.enough, ?_⟩
    · have hlow := h.bytes (1 + j) (by rw [List.length_singleton] at hj; omega)
      rw [hrandom, List.length_singleton, number_drop, number_drop]
      exact hlow
    · rw [keys]
      exact h.queued
    · rw [keys]
      exact h.keys
  | key key rest hqueue bytes waits keys hrandom =>
    rw [bytes, waits]
    rw [waits, List.length_singleton] at hq
    obtain ⟨n, rfl⟩ := Nat.exists_eq_add_of_le' hq
    obtain ⟨_, _, rest', hm, rfl⟩ := h.front hq
    obtain ⟨rfl, rfl⟩ := List.cons.inj (hqueue.symm.trans hm)
    have hqueued := h.queued
    have henough := h.enough
    have hkeys := h.keys
    rw [hqueue] at hqueued hkeys
    rw [List.take_succ_cons, List.take_succ_cons] at hkeys
    refine ⟨?_, ?_, Nat.le_of_succ_le_succ henough, ?_⟩
    · rw [hrandom]
      exact h.bytes
    · rw [keys]
      exact Nat.le_of_succ_le_succ hqueued
    · rw [keys]
      exact (List.cons.inj hkeys).2
  | quit held hqueue bytes waits keys hrandom =>
    -- the queue of the machine cannot be empty yet
    have hqueued := h.queued
    rw [waits, List.length_singleton] at hq
    rw [hqueue, List.length_nil] at hqueued
    omega

/-- How an action ends, and what it reports. -/
def results (m : Machine ScriptedKeys ρ) (a : Action) : List (Outcome × List LogRecord) :=
  [((m.act a).outcome, (m.act a).log)]

/-- The run lemma: two runs whose scripts differ in what is not read yet stay side by side. -/
theorem after_withScripts (h : m.ScriptsAgree queue random k q) {session : List Action}
    (hk : (history randomBytes m session).length ≤ k)
    (hq : (history keyWaits m session).length ≤ q) :
    history results (m.withScripts queue random) session = history results m session ∧
      (m.withScripts queue random).after session =
        (m.after session).withScripts (queue.drop (history keyWaits m session).length)
          (drop random (history randomBytes m session).length) := by
  induction session generalizing m queue random k q with
  | nil => exact ⟨rfl, rfl⟩
  | cons a rest ih =>
    rw [history, List.length_append] at hk hq
    have hact := act_withScripts h (a := a) (by omega) (by omega)
    have hlater := h.act (a := a) (by omega)
    obtain ⟨hresults, hafter⟩ := ih hlater (by omega) (by omega)
    have hmachine := congrArg Turn.machine hact
    refine ⟨?_, ?_⟩
    · show results (m.withScripts queue random) a ++
        history results ((m.withScripts queue random).act a).machine rest = _
      rw [hmachine, hresults, results, hact]
      rfl
    · show ((m.withScripts queue random).act a).machine.after rest = _
      rw [hmachine, hafter, history, history, List.length_append, List.length_append,
        List.drop_drop, drop_drop]
      rfl

/-- **Devices serve in order, once for each request.** A session on a machine with any random source
and any queued keys draws one number for each random byte, and byte `j` is the low byte of number
`j` behind its mask. The keys of the waits that went on, in order, are the front of the queue, and
the rest of the queue is left; a wait goes on exactly if there is a key, and once there is none every
further wait quits. So with other scripts that agree on as many numbers and keys as the session asks
for, every action ends and reports alike, and the machine afterwards is the same but for what the
scripts still hold. -/
theorem devices_serve_in_order (m : Machine ScriptedKeys ρ) (batches : List (List UInt8))
    (session : List Action) :
    let start := { m with keys := batches.foldl ScriptedKeys.enqueue m.keys }
    let last := start.after session
    let drawn := history randomBytes start session
    let waits := history keyWaits start session
    (last.random = drop m.random drawn.length ∧
      ∀ j, (hj : j < drawn.length) →
        drawn[j].held = (number m.random j).toUInt8 &&& drawn[j].mask) ∧
    m.keys.queue ++ batches.flatten = KeyWait.taken waits ++ last.keys.queue ∧
    (∀ x, Instruction.ofWord? last.nextWord = some (.awaitKey x) →
      last.step.outcome = if last.keys.queue = [] then .quits else .proceeds) ∧
    (last.keys.queue = [] → ∀ further x,
      Instruction.ofWord? (last.after further).nextWord = some (.awaitKey x) →
      (last.after further).step.outcome = .quits) ∧
    (∀ queue random k q, start.ScriptsAgree queue random k q → drawn.length ≤ k →
      waits.length ≤ q →
      history results (start.withScripts queue random) session = history results start session ∧
        (start.withScripts queue random).after session =
          last.withScripts (queue.drop waits.length) (drop random drawn.length)) := by
  intro start last drawn waits
  have hqueue : start.keys.queue = m.keys.queue ++ batches.flatten :=
    m.keys.queue_enqueue batches
  refine ⟨start.after_randomBytes session, ?_, fun x => wait_outcome,
    fun hempty further x hw => ?_, fun queue random k q h hk hq => after_withScripts h hk hq⟩
  · rw [← hqueue]
    exact start.after_queue session
  · have hrest := last.after_queue further
    rw [hempty] at hrest
    rw [wait_outcome hw, if_pos (List.append_eq_nil_iff.mp hrest.symm).2]

/-- Two random bytes and two keys: the second wait has the second key, and the third quits. -/
example :
    let program : ByteSource := .ofBytes
      [0xc0, 0x0f, 0xf1, 0x0a, 0xc2, 0xff, 0xf3, 0x0a, 0xf4, 0x0a]
    let m := fresh ((⟨[], [], 0, none⟩ : ScriptedKeys).enqueue [0x7, 0xb])
      (⟨[0x12345678, 0x9a], 0⟩ : ScriptedRandom)
    let session := .load program :: List.replicate 5 .step
    history randomBytes m session = [⟨0x0f, 0x08⟩, ⟨0xff, 0x9a⟩] ∧
      history keyWaits m session = [⟨.proceeds, 0x7⟩, ⟨.proceeds, 0xb⟩, ⟨.quits, 0x0⟩] := by
  decide +kernel

end Machine

end Chip8
