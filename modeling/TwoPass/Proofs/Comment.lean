import TwoPass.Proofs.Correspondence
import TwoPass.Proofs.Source.Wording

/-!
# Comments and blank lines

Whatever stands behind the first semicolon of a line has no effect on a run, and neither have lines
with nothing but white space in front of it.  They only move the numbers of the lines behind them.
-/

namespace TwoPass

/-- The line has been inserted and has nothing but white space in front of its comment, or it differs
from the line that it stands for at most in its comment. -/
def EditedLine.Inert (line : EditedLine) : Prop :=
  match line.original with
  | none => (line.text.takeWhile (fun c => c != .char ';')).all Text.isBlank = true
  | some raw => line.text.takeWhile (fun c => c != .char ';') = raw.takeWhile (fun c => c != .char ';')

instance (line : EditedLine) : Decidable line.Inert := by
  unfold EditedLine.Inert
  split <;> infer_instance

/-- Two programs that only differ in the numbers of the lines. -/
structure Program.SameButLines (shift : Int → Int) (program other : Program) : Prop where
  loadLines : other.image.loadLines = program.image.loadLines
  words : other.image.words.map (fun placed => (placed.address, placed.word)) =
    program.image.words.map (fun placed => (placed.address, placed.word))
  lines : other.image.words.map PlacedWord.line =
    program.image.words.map (fun placed => shift placed.line)
  symbols : other.symbols = program.symbols
  log : other.log = program.log.map (Warning.moved id shift)

theorem Program.Counterpart.sameButLines {shift : Int → Int} {program other : Program}
    (hcounterpart : program.Counterpart id id shift other) : program.SameButLines shift other where
  loadLines := by
    rw [Image.loadLines, hcounterpart.words, List.map_map]
    rfl
  words := by
    rw [hcounterpart.words, List.map_map]
    rfl
  lines := by
    rw [hcounterpart.words, List.map_map]
    rfl
  symbols := by simpa using hcounterpart.symbols
  log := by simpa using hcounterpart.log

theorem Line.kind_eq_blank_of_code {text : Text}
    (hblank : (text.takeWhile (fun c => c != .char ';')).all Text.isBlank = true) :
    Line.kind (Text.dropLineEnds text) = .blank := by
  rw [kind_eq_blank_iff, Text.trim_eq_nil_iff]
  obtain ⟨blanks, hcode, -⟩ := code_dropLineEnds text
  intro c hmem
  apply List.all_eq_true.mp hblank c
  rw [← code_eq_takeWhile, hcode]
  exact List.mem_append_left blanks hmem

/-- A line is read by its code alone. -/
theorem Line.Counterpart.of_code {β : Type} (observe : Warning → β) {raw text : Text}
    (hcode : text.takeWhile (fun c => c != .char ';') = raw.takeWhile (fun c => c != .char ';')) :
    Line.Counterpart observe id (Text.dropLineEnds raw) (Text.dropLineEnds text) := by
  rw [← code_eq_takeWhile, ← code_eq_takeWhile] at hcode
  apply Counterpart.of_body
  · rw [label?_dropLineEnds, label?_dropLineEnds, label?, hcode, label?]
  · rw [body_dropLineEnds, body_dropLineEnds, body, hcode, body]

theorem EditedLine.Inert.follows {line : EditedLine} (hinert : line.Inert) :
    line.stripped.Follows (Line.Counterpart id id) := by
  rcases line with ⟨_ | raw, text⟩
  · exact .inserted (Line.kind_eq_blank_of_code hinert)
  · exact .kept (Line.Counterpart.of_code id hinert)

/-- Comments and blank lines are inert.  Insert lines with nothing but white space in front of their
comments, and change the comments of others: the run ends as before, with the same load lines, words and
symbols or with an error of the same family.  Lines have moved, and so have the lines that warnings and
the error name. -/
theorem Run.corresponds_of_inert (options : Options) (file : Text) {edit : Edit}
    (hinert : ∀ line ∈ edit, line.Inert) :
    (ofLines options file edit.originals).Corresponds edit.shift
      (Program.SameButLines edit.shift) (ofLines options file edit.texts) := by
  have hfollows : ∀ line ∈ edit.stripped, line.Follows (Line.Counterpart id id) := by
    intro line hmem
    obtain ⟨edited, hedited, rfl⟩ := List.mem_map.mp hmem
    exact (hinert edited hedited).follows
  have hcorresponds := Run.corresponds_of_edit (Edit.originals_stripped edit).symm
    (Edit.texts_stripped edit).symm Text.keepsNamesApart_id (Edit.tracks_stripped edit) hfollows
    options file
  exact hcorresponds.mono fun program other => Program.Counterpart.sameButLines

/-- A source with its comments changed, and with a comment and a blank line inserted. -/
def Edit.commented : Edit :=
  [⟨none, "; A: HLT ; B:".text⟩, ⟨some "A: LDR 0,0,A".text, "A: LDR 0,0,A;; 1: B".text⟩,
    ⟨none, " \t\r\n".text⟩, ⟨some "A: HLT ;first".text, "A: HLT ;Data 7".text⟩]

/-- The label is still defined twice, and both lines that the warning names have moved. -/
theorem Run.corresponds_of_commented :
    (∀ line ∈ Edit.commented, line.Inert) ∧
      (ofLines Options.default [] Edit.commented.texts).log =
        [⟨.redefined "A".text 0 1 (some 2), some ⟨[], 4⟩⟩] ∧
      (ofLines Options.default [] Edit.commented.originals).Corresponds Edit.commented.shift
        (Program.SameButLines Edit.commented.shift)
        (ofLines Options.default [] Edit.commented.texts) :=
  ⟨by decide, by decide +kernel, Run.corresponds_of_inert Options.default [] (by decide)⟩

end TwoPass
