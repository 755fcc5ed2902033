import TwoPass.Proofs.Operand.Grammar

/-!
# Strict reading against lenient reading

Strict reading differs from lenient reading in one way only: where lenient reading would warn of a shift
flag for the first time, strict reading refuses the line.  The relation between the two outcomes is
carried through every later step of the same line.
-/

namespace TwoPass

/-- The warning is about a shift flag that no spelling is known for. -/
def Warning.concernsFlag (warning : Warning) : Bool :=
  match warning.cause with
  | .unknownFlag _ _ => true
  | _ => false

/-- No warning in the log is about a shift flag. -/
def Log.FlagFree (log : Log) : Prop :=
  ∀ warning ∈ log, warning.concernsFlag = false

instance (log : Log) : Decidable log.FlagFree :=
  inferInstanceAs (Decidable (∀ warning ∈ log, warning.concernsFlag = false))

theorem Log.flagFree_nil : Log.FlagFree [] := by
  intro warning hmem
  simp at hmem

theorem Log.FlagFree.append {first second : Log} (hfirst : first.FlagFree)
    (hsecond : second.FlagFree) : Log.FlagFree (first ++ second) := by
  intro warning hmem
  rcases List.mem_append.mp hmem with hleft | hright
  · exact hfirst warning hleft
  · exact hsecond warning hright

/-- The strict outcome that belongs to a lenient one, on a line at `place` with the text `sourceLine`:
the same if no warning is about a flag, and else an error about the flag that the first warning is
about. -/
inductive Tightens {α : Type} (place : Option Place) (sourceLine : Option Text) :
    Except Abort (α × Log) → Except Abort (α × Log) → Prop
  | failed (abort : Abort) : Tightens place sourceLine (.error abort) (.error abort)
  | quiet (value : α) {log : Log} (hfree : log.FlagFree) :
      Tightens place sourceLine (.ok (value, log)) (.ok (value, log))
  | refused (value : α) (flag : ShiftFlag) (token : Text) (rest : Log) :
      Tightens place sourceLine (.ok (value, ⟨.unknownFlag flag token, place⟩ :: rest))
        (.error (.error ⟨.unknownFlag flag token, place, sourceLine⟩))

namespace Tightens

variable {α β : Type} {place : Option Place} {sourceLine : Option Text}

/-- An outcome without warnings about flags is its own strict outcome. -/
theorem refl {outcome : Except Abort (α × Log)}
    (hfree : ∀ value log, outcome = .ok (value, log) → log.FlagFree) :
    Tightens place sourceLine outcome outcome := by
  rcases outcome with abort | ⟨value, log⟩
  · exact .failed abort
  · exact .quiet value (hfree value log rfl)

/-- What comes before the flags is the same in both ways of reading. -/
theorem bind (first : Except Abort β) {lenient strict : β → Except Abort (α × Log)}
    (hnext : ∀ value, Tightens place sourceLine (lenient value) (strict value)) :
    Tightens place sourceLine (first >>= lenient) (first >>= strict) := by
  rcases first with abort | value
  · exact .failed abort
  · exact hnext value

/-- A later step adds its own warnings.  It must not fail behind a warning about a flag, because the
strict outcome is the error about the flag. -/
theorem andThen {lenient strict : Except Abort (α × Log)} {next : α → Except Abort (β × Log)}
    (htightens : Tightens place sourceLine lenient strict)
    (hfree : ∀ value result log, next value = .ok (result, log) → log.FlagFree)
    (hsucceeds : ∀ value log, lenient = .ok (value, log) → log ≠ [] →
      ∃ result, next value = .ok result) :
    Tightens place sourceLine
      (lenient >>= fun found => next found.1 >>= fun result => pure (result.1, found.2 ++ result.2))
      (strict >>= fun found =>
        next found.1 >>= fun result => pure (result.1, found.2 ++ result.2)) := by
  cases htightens with
  | failed abort => exact .failed abort
  | @quiet value log hlog =>
      cases hresult : next value with
      | error abort =>
          simp only [Bind.bind, Except.bind, hresult]
          exact .failed abort
      | ok result =>
          simp only [Bind.bind, Except.bind, hresult]
          exact .quiet result.1 (hlog.append (hfree value result.1 result.2 hresult))
  | refused value flag token rest =>
      obtain ⟨result, hresult⟩ := hsucceeds value _ rfl (List.cons_ne_nil _ _)
      simp only [Bind.bind, Except.bind, hresult]
      exact .refused result.1 flag token (rest ++ result.2)

end Tightens

namespace OperandReader

variable (mnemonic : Text) (place : Option Place) (sourceLine : Option Text)

/-- The two flags of a shift: the first one that no spelling is known for decides. -/
theorem tightens_shiftFlags (register : Fin 4) (count : Fin 16) (direction kind : Text) :
    Tightens place sourceLine
      (do
        let (left, leftLog) ← shiftFlag ⟨mnemonic, place, sourceLine, false⟩ .direction direction
        let (arithmetic, arithmeticLog) ← shiftFlag ⟨mnemonic, place, sourceLine, false⟩ .kind kind
        return (Operands.shift register count left arithmetic, leftLog ++ arithmeticLog))
      (do
        let (left, leftLog) ← shiftFlag ⟨mnemonic, place, sourceLine, true⟩ .direction direction
        let (arithmetic, arithmeticLog) ← shiftFlag ⟨mnemonic, place, sourceLine, true⟩ .kind kind
        return (Operands.shift register count left arithmetic, leftLog ++ arithmeticLog)) := by
  cases hdirection : ShiftFlag.direction.ofToken? direction with
  | none =>
      cases hkind : ShiftFlag.kind.ofToken? kind with
      | none =>
          simp only [shiftFlag, hdirection, hkind]
          exact .refused _ _ _ _
      | some arithmetic =>
          simp only [shiftFlag, hdirection, hkind]
          exact .refused _ _ _ _
  | some left =>
      cases hkind : ShiftFlag.kind.ofToken? kind with
      | none =>
          simp only [shiftFlag, hdirection, hkind]
          exact .refused _ _ _ _
      | some arithmetic =>
          simp only [shiftFlag, hdirection, hkind]
          exact .quiet _ Log.flagFree_nil

theorem tightens_shift (text : Text) :
    Tightens place sourceLine (shift ⟨mnemonic, place, sourceLine, false⟩ text)
      (shift ⟨mnemonic, place, sourceLine, true⟩ text) := by
  refine Tightens.bind (fields ⟨mnemonic, place, sourceLine, false⟩ .shift text) fun tokens => ?_
  split
  · rename_i register count direction kind
    refine Tightens.bind (number ⟨mnemonic, place, sourceLine, false⟩ .register register) fun r => ?_
    refine Tightens.bind (number ⟨mnemonic, place, sourceLine, false⟩ .shiftCount count) fun n => ?_
    exact tightens_shiftFlags mnemonic place sourceLine r n direction kind
  · exact .failed _

/-- Strict reading refuses the first flag that lenient reading warns of. -/
theorem tightens_read (instruction : Instruction) (text : Text) :
    Tightens place sourceLine (read ⟨mnemonic, place, sourceLine, false⟩ instruction text)
      (read ⟨mnemonic, place, sourceLine, true⟩ instruction text) := by
  have hquiet : ∀ outcome : Except Abort Operands,
      Tightens place sourceLine (quietly outcome) (quietly outcome) := by
    intro outcome
    apply Tightens.refl
    intro operands log hread
    rw [((quietly_eq_ok_iff outcome operands log).mp hread).2]
    exact Log.flagFree_nil
  unfold read
  cases instruction.format with
  | shift => exact tightens_shift mnemonic place sourceLine text
  | memory => exact hquiet (memory ⟨mnemonic, place, sourceLine, false⟩ _ text)
  | immediate => exact hquiet (immediate ⟨mnemonic, place, sourceLine, false⟩ text)
  | register => exact hquiet (registers ⟨mnemonic, place, sourceLine, false⟩ text)
  | device => exact hquiet (device ⟨mnemonic, place, sourceLine, false⟩ text)
  | bare => exact hquiet (bare ⟨mnemonic, place, sourceLine, false⟩ text)

end OperandReader

end TwoPass
