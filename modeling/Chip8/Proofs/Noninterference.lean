import Chip8.Proofs.Footprint
import Chip8.Proofs.Unobserved

/-!
# Keys and random bytes

Keys are read by `Ex9E`, `ExA1` and `Fx0A` alone, and random bytes by `Cxkk`. A run that executes none
of these words goes the same way whatever the keys, the inputs of a host to them and the random source
are (`Machine.run_blind`).
-/

namespace Chip8.Machine

/-- The word reads a key or a random byte: `Ex9E`, `ExA1`, `Fx0A` and `Cxkk`. -/
def ReadsInput (w : Nat) : Prop :=
  w / 4096 = 0xE ∧ w % 256 ∈ [0x9E, 0xA1] ∨ w / 4096 = 0xF ∧ w % 256 = 0x0A ∨ w / 4096 = 0xC

instance : DecidablePred ReadsInput := fun _ => inferInstanceAs (Decidable (_ ∨ _))

/-- The machine with other keys and another random source. -/
def withInputs (keys keysSeen : Keypad) (random : RandomSource) (m : Machine) : Machine :=
  { m with keys := keys, keysSeen := keysSeen, random := random }

/-- The action changes the keys and nothing else. -/
def HostAction.SetsKeys : HostAction → Prop
  | .press _ | .release _ | .setKeys _ => True
  | .reset | .load _ | .step | .tick | .awaitKey _ => False

instance : DecidablePred HostAction.SetsKeys
  | .press _ | .release _ | .setKeys _ => .isTrue trivial
  | .reset | .load _ | .step | .tick | .awaitKey _ => .isFalse id

variable {m : Machine} {w : Nat} (keys keysSeen : Keypad) (random : RandomSource)

/-! ## Steps -/

theorem unseen_withInputs : Unseen (withInputs keys keysSeen random) where
  waiting_eq _ := rfl
  memory_eq _ := rfl
  index_eq _ := rfl
  stack_eq _ := rfl
  counted _ _ _ _ := rfl

theorem ignores_withInputs {op : Operation} (hw : w < 65536)
    (admitted : op.encoding.admits w = true) (blind : ¬ ReadsInput w) (m : Machine) :
    Ignores (withInputs keys keysSeen random) m (.ofWord op w) := by
  have key : op ≠ .skipIfKey ∧ op ≠ .skipUnlessKey ∧ op ≠ .awaitKey := by
    refine ⟨?_, ?_, ?_⟩
    all_goals
      rintro rfl
      obtain ⟨first, low⟩ := (Encoding.admits_lowByte hw (by decide) (by decide)).mp admitted
      exact blind (by simp [ReadsInput, first, low])
  have draws : op ≠ .random := by
    rintro rfl
    have first := (Encoding.admits_firstDigit hw).mp admitted
    exact blind (.inr (.inr first))
  obtain ⟨skips, skipsUnless, awaits⟩ := key
  constructor
  · cases op
    case skipIfKey => exact absurd rfl skips
    case skipUnlessKey => exact absurd rfl skipsUnless
    all_goals rfl
  · rw [effect_eq, effect_eq]
    cases op
    case awaitKey => exact absurd rfl awaits
    case random => exact absurd rfl draws
    all_goals rfl

/-- A step that reads no input does the same with any keys and any random source. -/
theorem step_withInputs (awake : m.waiting = none)
    (blind : ∀ w, m.Executes w → ¬ ReadsInput w) :
    (m.withInputs keys keysSeen random).step =
      (m.step.1.withInputs keys keysSeen random, m.step.2) := by
  apply (unseen_withInputs keys keysSeen random).step
  · intro r hr
    rw [awake] at hr
    exact absurd hr (by simp)
  · intro w op executes admitted
    exact ignores_withInputs _ _ _ executes.word_lt admitted (blind w executes) m.advanced

/-- A step that reads no input neither begins a key wait nor draws a random byte. -/
theorem Executes.blind (h : m.Executes w) (blind : ¬ ReadsInput w) :
    m.step.1.waiting = none ∧ m.step.1.random = m.random := by
  have kept := h.footprint
  constructor
  · by_contra begun
    rw [← h.awake] at begun
    exact blind (.inr (.inl (kept.waiting begun)))
  · by_contra drawn
    exact blind (.inr (.inr (kept.random drawn)))

/-! ## Runs -/

theorem HostAction.SetsKeys.isInput {action : HostAction} (h : action.SetsKeys) :
    action.IsInput := by
  cases action with
  | press _ | release _ | setKeys _ => trivial
  | reset | load _ | step | tick | awaitKey _ => exact h.elim

theorem after_setsKeys {inputs : List HostAction} (given : ∀ a ∈ inputs, a.SetsKeys)
    (m : Machine) : ∃ keys, m.after inputs = { m with keys := keys } := by
  induction inputs generalizing m with
  | nil => exact ⟨m.keys, rfl⟩
  | cons action rest ih =>
    have first : ∃ keys, (m.perform action).1 = { m with keys := keys } := by
      cases action with
      | press _ | release _ => exact ⟨_, rfl⟩
      | setKeys states =>
        simp only [perform]
        cases Keypad.ofList states <;> exact ⟨_, rfl⟩
      | reset | load _ | step | tick | awaitKey _ => exact absurd (given _ List.mem_cons_self) id
    obtain ⟨_, now⟩ := first
    obtain ⟨keys, later⟩ := ih (fun a ha => given a (List.mem_cons_of_mem _ ha)) (m.perform action).1
    refine ⟨keys, ?_⟩
    rw [after_cons, later, now]

/-- A step that reads no input goes the same way behind inputs to other keys. -/
theorem round_withInputs (awake : m.waiting = none) (succeeds : m.step.2 = none)
    (blind : ∀ w, m.Executes w → ¬ ReadsInput w) {inputs : List HostAction}
    (given : ∀ action ∈ inputs, action.SetsKeys) :
    let other := m.withInputs keys keysSeen random
    other.Faultless (inputs ++ [.step]) ∧
      other.executed (inputs ++ [.step]) = m.executed [.step] ∧
      ∃ keysNow, other.after (inputs ++ [.step]) =
        m.step.1.withInputs keysNow keysSeen random := by
  intro other
  obtain ⟨keysNow, pressed⟩ := after_setsKeys given other
  have start : other.after inputs = m.withInputs keysNow keysSeen random := pressed
  have isInput : ∀ a ∈ inputs, a.IsInput := fun a ha => (given a ha).isInput
  have stepped := step_withInputs keysNow keysSeen random awake blind
  have executes := executes_currentWord awake succeeds
  have otherExecutes := (unseen_withInputs keysNow keysSeen random).executes_iff.mpr executes
  refine ⟨?_, ?_, keysNow, ?_⟩
  · rw [faultless_snoc, start, stepped]
    exact ⟨faultless_inputs isInput, succeeds⟩
  · rw [executed_append, executed_inputs isInput, start, executed_step otherExecutes,
      executed_step executes]
    rfl
  · rw [after_append, start]
    show (m.withInputs keysNow keysSeen random).step.1 = _
    rw [stepped]

/-- **Keys and random bytes enter only through their instructions.** If steps of a machine that is
awake do not fault and execute none of `Ex9E`, `ExA1`, `Fx0A` and `Cxkk`, then with any other keys,
any inputs to the keys in between and any other random source they do not fault either, execute the
same words, and leave the same machine but for the keys and the random source, of which nothing is
drawn. -/
theorem run_blind {n : Nat} (awake : m.waiting = none)
    (faultless : m.Faultless (List.replicate n .step))
    (blind : ∀ w ∈ m.executed (List.replicate n .step), ¬ ReadsInput w)
    (keys keysSeen : Keypad) (random : RandomSource) {inputs : Nat → List HostAction}
    (given : ∀ k, ∀ action ∈ inputs k, action.SetsKeys) :
    let plain := m.after (List.replicate n .step)
    let other := m.withInputs keys keysSeen random
    other.Faultless (rounds inputs n) ∧
      other.executed (rounds inputs n) = m.executed (List.replicate n .step) ∧
      (∃ keysNow, other.after (rounds inputs n) = plain.withInputs keysNow keysSeen random) ∧
      plain.random = m.random ∧ plain.waiting = none := by
  intro plain other
  induction n with
  | zero => exact ⟨by simp [Faultless, outcomes, rounds], rfl, ⟨keys, rfl⟩, rfl, awake⟩
  | succ n ih =>
    have steps : List.replicate (n + 1) HostAction.step = List.replicate n .step ++ [.step] :=
      List.replicate_succ'
    have behind : plain = (m.after (List.replicate n .step)).step.1 := by
      unfold plain
      rw [steps, after_append]
      rfl
    rw [steps] at faultless blind ⊢
    obtain ⟨before, last⟩ := executed_snoc blind
    obtain ⟨clean, succeeds⟩ := faultless_snoc.mp faultless
    obtain ⟨otherClean, words, ⟨keysThen, reached⟩, undrawn, stillAwake⟩ := ih clean before
    obtain ⟨roundClean, word, keysNow, left⟩ :=
      round_withInputs keysThen keysSeen random stillAwake succeeds last (given n)
    rw [← reached] at roundClean word left
    have executes := executes_currentWord stillAwake succeeds
    obtain ⟨awakeNext, undrawnNext⟩ := executes.blind (last _ executes)
    rw [behind, rounds, List.append_assoc]
    refine ⟨?_, ?_, ⟨keysNow, ?_⟩, undrawnNext.trans undrawn, awakeNext⟩
    · exact faultless_append.mpr ⟨otherClean, roundClean⟩
    · rw [executed_append (rounds inputs n), executed_append (List.replicate n .step), words, word]
    · rw [after_append, left]

/-- A loop that never looks at the keys, behind a host that presses them, and once gives too few. -/
theorem run_blind_loop :
    let start := ((powerOn .modern .zero).load [0x60, 0x05, 0x70, 0x01, 0x12, 0x02]).1
    let other := start.withInputs Keypad.released Keypad.released (.cycle #[0xAB])
    let inputs : Nat → List HostAction := fun k => [.press k, .setKeys [true]]
    other.executed (rounds inputs 4) = [0x6005, 0x7001, 0x1202, 0x7001] ∧
      (other.after (rounds inputs 4)).registers.value 0 = 7 ∧
      (other.after (rounds inputs 4)).random.drawn = 0 := by
  intro start other inputs
  have facts : start.waiting = none ∧
      start.outcomes (List.replicate 4 .step) = [none, none, none, none] ∧
      start.executed (List.replicate 4 .step) = [0x6005, 0x7001, 0x1202, 0x7001] ∧
      (start.after (List.replicate 4 .step)).registers.value 0 = 7 := by
    decide +kernel
  obtain ⟨awake, passes, words, value⟩ := facts
  have faultless : start.Faultless (List.replicate 4 .step) := by
    intro f
    rw [passes]
    simp
  have blind : ∀ w ∈ start.executed (List.replicate 4 .step), ¬ ReadsInput w := by
    rw [words]
    decide
  have given : ∀ k, ∀ action ∈ inputs k, action.SetsKeys := by
    simp [inputs, HostAction.SetsKeys]
  obtain ⟨-, same, ⟨keysNow, reached⟩, -⟩ :=
    run_blind awake faultless blind Keypad.released Keypad.released (.cycle #[0xAB]) given
  refine ⟨same.trans words, ?_, ?_⟩
  · rw [reached]
    simp only [withInputs, value]
  · rw [reached]
    rfl

end Chip8.Machine
