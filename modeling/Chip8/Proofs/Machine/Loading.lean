import Chip8.Keypad.Scripted
import Chip8.Proofs.Machine.Stepping
import Chip8.Proofs.Memory.Writes

/-!
# Loading a program, all of it or nothing

A source is read chunk by chunk behind a buffer, and only a source that is read to its end gives
anything to load: what it gives is its bytes, however they were cut. A program that fits lies
between its start and the top of memory, so copying it never comes round to the font. One that does
not fit, or breaks off, leaves the machine untouched.
-/

namespace Chip8

namespace ByteSource

/-- Reads the chunks that are left behind what has been read. A source that breaks off gives its
reason alone, whatever it has handed out. -/
def gather (failure : Option String) (buffer : List UInt8) :
    List (List UInt8) → Except Fault (List UInt8)
  | [] =>
    match failure with
    | none => .ok buffer
    | some reason => .error (.device reason)
  | chunk :: rest => gather failure (buffer ++ chunk) rest

theorem gather_of_ended (buffer : List UInt8) (chunks : List (List UInt8)) :
    gather none buffer chunks = .ok (buffer ++ chunks.flatten) := by
  induction chunks generalizing buffer with
  | nil => rw [gather, List.flatten_nil, List.append_nil]
  | cons chunk rest ih => rw [gather, ih, List.flatten_cons, List.append_assoc]

theorem gather_of_failed (reason : String) (buffer : List UInt8) (chunks : List (List UInt8)) :
    gather (some reason) buffer chunks = .error (.device reason) := by
  induction chunks generalizing buffer with
  | nil => rfl
  | cons chunk rest ih => exact ih (buffer ++ chunk)

/-- What a source holds is what reading it comes to. -/
theorem contents_eq_gather (s : ByteSource) : s.contents = gather s.failure [] s.chunks := by
  unfold contents
  cases s.failure with
  | none => exact (gather_of_ended [] s.chunks).symm
  | some reason => exact (gather_of_failed reason [] s.chunks).symm

end ByteSource

namespace Machine

variable {κ ρ : Type}

theorem load_of_fits (m : Machine κ ρ) {program : List UInt8} (h : program.length ≤ 3584) :
    m.load program =
      ⟨.proceeds,
        { m with
          memory := m.memory.writeBlock programStart program
          cpu := { m.cpu with pc := 0x200 } },
        [.loaded program.length]⟩ := by
  have hfits : program.length ≤ programCapacity := h
  have hall : [program].flatten = program := by simp
  simp only [load, loadFrom, Memory.loadFrom, ByteSource.contents, ByteSource.ofBytes, hall,
    Memory.loadProgram, hfits, ↓reduceIte]
  rfl

theorem load_of_excess (m : Machine κ ρ) {program : List UInt8} (h : 3584 < program.length) :
    m.load program = ⟨.faults (.programTooLarge program.length 3584), m, []⟩ := by
  have hexcess : ¬ program.length ≤ programCapacity := Nat.not_le.mpr h
  have hall : [program].flatten = program := by simp
  simp only [load, loadFrom, Memory.loadFrom, ByteSource.contents, ByteSource.ofBytes, hall,
    Memory.loadProgram, hexcess, ↓reduceIte]
  rfl

/-- A source is loaded as the bytes that it gives, in one piece. -/
theorem loadFrom_eq (m : Machine κ ρ) (source : ByteSource) :
    m.loadFrom source =
      match source.contents with
      | .ok program => m.load program
      | .error fault => ⟨.faults fault, m, []⟩ := by
  unfold load loadFrom Memory.loadFrom
  cases source.contents with
  | error fault => rfl
  | ok program =>
    have hall : (ByteSource.ofBytes program).contents = .ok program := by
      simp [ByteSource.contents, ByteSource.ofBytes]
    simp only [hall]

/-- **Loading is all or nothing.** However a source hands out its bytes, a machine loads them as if
they came in one piece, and a source that breaks off fails for its reason and changes nothing. A
program is loaded if and only if it has at most 3584 bytes. Then byte `j` lies at `0x200 + j`, the
other bytes are as they were, the machine goes on at `0x200` and is otherwise unchanged, and one line
is logged. A larger program fails with its size, and changes nothing. -/
theorem loading_is_all_or_nothing (m : Machine κ ρ) (source : ByteSource) (program : List UInt8) :
    (m.loadFrom source =
      match ByteSource.gather source.failure [] source.chunks with
      | .ok bytes => m.load bytes
      | .error fault => ⟨.faults fault, m, []⟩) ∧
    (∀ reason, source.failure = some reason →
      m.loadFrom source = ⟨.faults (.device reason), m, []⟩) ∧
    (source.failure = none → m.loadFrom source = m.load source.chunks.flatten) ∧
    ((m.load program).outcome = .proceeds ↔ program.length ≤ 3584) ∧
    (program.length ≤ 3584 →
      (∀ j, (hj : j < program.length) →
        (m.load program).machine.memory.bytes[Fin.ofNat 4096 (0x200 + j)] = program[j]) ∧
      (∀ a : Fin 4096, a.val < 0x200 ∨ 0x200 + program.length ≤ a.val →
        (m.load program).machine.memory.bytes[a] = m.memory.bytes[a]) ∧
      (m.load program).machine = { m with
        memory := (m.load program).machine.memory
        cpu := { m.cpu with pc := 0x200 } } ∧
      (m.load program).log = [.loaded program.length]) ∧
    (3584 < program.length →
      m.load program = ⟨.faults (.programTooLarge program.length 3584), m, []⟩) := by
  have hsource := m.loadFrom_eq source
  rw [ByteSource.contents_eq_gather] at hsource
  refine ⟨hsource, fun reason hfailure => ?_, fun hfailure => ?_, ⟨fun ho => ?_, fun hfits => ?_⟩,
    fun hfits => ?_, m.load_of_excess⟩
  · rw [hsource, hfailure, ByteSource.gather_of_failed]
  · rw [hsource, hfailure, ByteSource.gather_of_ended]
    rfl
  · rcases Nat.lt_or_ge 3584 program.length with hexcess | hfits
    · rw [m.load_of_excess hexcess] at ho
      cases ho
    · exact hfits
  · rw [m.load_of_fits hfits]
  · have htop : programStart.toNat + program.length ≤ memorySize := by
      show 0x200 + program.length ≤ 4096
      omega
    rw [m.load_of_fits hfits]
    refine ⟨fun j hj => ?_, fun a ha => ?_, rfl, rfl⟩
    · have hplace : (Fin.ofNat 4096 (0x200 + j)).val = programStart.toNat + j := by
        show (0x200 + j) % 4096 = 0x200 + j
        omega
      exact Memory.bytes_writeBlock_inside htop hj hplace
    · exact Memory.bytes_writeBlock_outside htop ha

/-- A program in two chunks, over a longer one: the end of the longer one stays. -/
example :
    let m := (fresh (⟨[], [], 0, none⟩ : ScriptedKeys) (⟨[], 0⟩ : ScriptedRandom)).after
      [.load (.ofBytes [1, 2, 3, 4]), .load ⟨[[9], [8]], none⟩, .load ⟨[[7], [7]], some "gone"⟩]
    (List.range 4).map (fun j => m.memory.bytes[Fin.ofNat 4096 (0x200 + j)]) = [9, 8, 3, 4] := by
  decide +kernel

end Machine

end Chip8
