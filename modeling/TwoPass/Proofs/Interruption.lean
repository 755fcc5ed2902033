import TwoPass.Proofs.Failure
import TwoPass.Proofs.Image.Recorder
import TwoPass.Proofs.Listing
import TwoPass.Proofs.Source.Surveyor

/-!
# What an interrupted pass leaves behind

Both passes go through the lines in order and end at the first one they cannot process.  That line has
no effect: the labels, the words and the warnings are those of the lines before it, as if the source
had ended there.  A run is the two passes one after the other.
-/

namespace TwoPass

/-- A run is the two passes one after the other, unless the lines are far too many: the table is closed
between them, and the second pass adds to the log of the first. -/
theorem Run.ofLines_of_passes (options : Options) (file : Text) {lines : List Text}
    (hlines : Text.Writable (65535 + lines.length)) :
    (∀ abort survey, (Surveyor.readLines file lines).run .start = .error abort survey →
      Run.ofLines options file lines = ⟨.error abort, .empty, survey.log, survey.events⟩) ∧
    ∀ records survey encoding, (Surveyor.readLines file lines).run .start = .ok records survey →
      Recorder.encodeAll survey.table.close options.strictFlags survey.log records = encoding →
      (Run.ofLines options file lines).image = ⟨records, encoding.words⟩ ∧
        (Run.ofLines options file lines).log = encoding.log ∧
        (Run.ofLines options file lines).outcome =
          match encoding.stop with
          | some abort => .error abort
          | none => Run.judge options
              ⟨⟨records, encoding.words⟩, survey.table.bindings, encoding.log⟩ := by
  have hrun := Surveyor.run_readLines file hlines
  have hopen : Survey.start.table.closed = false := rfl
  have hsettled := Surveyor.settled_readLines hopen Surveyor.fits_start hlines file
  rw [hrun] at hsettled ⊢
  rw [Run.ofLines]
  generalize Survey.readSource file lines = ended at hsettled ⊢
  obtain ⟨survey, outcome⟩ := ended
  cases outcome with
  | error abort =>
      refine ⟨?_, fun _ _ _ hok => by cases hok⟩
      intro other after herror
      obtain ⟨rfl, rfl⟩ := EStateM.Result.error.inj herror
      rfl
  | ok records =>
      refine ⟨fun _ _ herror => (by cases herror), ?_⟩
      intro found after encoding hok hencoding
      obtain ⟨rfl, rfl⟩ := EStateM.Result.ok.inj hok
      have hclosed : survey.table.close.Fits := hsettled.1
      have hpass : Recorder.encodeAll survey.table.close options.strictFlags survey.log records = _ :=
        Recorder.encodeFrom_of_fits hclosed hsettled.2
      rw [← hencoding, hpass]
      simp only [Run.encode, List.nil_append]
      cases (Encoding.ofRecords survey.table.close options.strictFlags records).stop with
      | none => exact ⟨rfl, rfl, rfl⟩
      | some abort => exact ⟨rfl, rfl, rfl⟩

namespace Encoding

variable {table : SymbolTable} {strict : Bool}

/-- Words have the numbers of the word lines. -/
theorem map_line_words {records : List Record} (hnone : (ofRecords table strict records).stop = none) :
    (ofRecords table strict records).words.map PlacedWord.line =
      (records.filter Record.occupiesWord).map Record.line := by
  obtain ⟨outputs, houtputs, hwords, -⟩ := outputs_of_stop_eq_none hnone
  rw [hwords, List.map_map]
  symm
  apply map_eq_map_of_forall₂
  exact houtputs.imp fun record output houtput => houtput.2.2.symm

/-- A record with another number than those of the word lines is listed behind spaces. -/
theorem listingLine_of_not_mem {records : List Record}
    (hnone : (ofRecords table strict records).stop = none) {record : Record}
    (hnumber : record.line ∉ (records.filter Record.occupiesWord).map Record.line) :
    Image.listingLine (ofRecords table strict records).words.reverse record =
      List.replicate 8 (.char ' ') ++ record.raw := by
  rw [← map_line_words hnone] at hnumber
  exact Image.listingLine_of_not_mem hnumber

end Encoding

/-- A label at a number of too many digits stops a line that has already been warned about. -/
example :
    ((Surveyor.readLines "a.asm".text ["LOC 65535".text, "HLT".text, "A: HLT".text]).run
      ⟨⟨[⟨"A".text, 10 ^ 4300, none⟩], false⟩, [], []⟩ matches .error .unwritable ⟨_, [_], _⟩) := by
  decide +kernel

end TwoPass
