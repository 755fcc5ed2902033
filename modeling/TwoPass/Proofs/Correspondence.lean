import TwoPass.Proofs.LongNumeral
import TwoPass.Proofs.Source.Counterpart
import TwoPass.Proofs.Source.Wording

/-!
# Runs that correspond

If every line of a source has its counterpart in an edited source and whatever is inserted is blank, the
two runs end alike.  Either both end with a program, and the programs are the same up to the names of
labels and the numbers of lines; or both stop for the same reason at the same line.  The two sources are
compared line by line, and the first line that stops one run stops the other.
-/

namespace TwoPass

def PlacedWord.moved (shift : Int → Int) (placed : PlacedWord) : PlacedWord :=
  ⟨placed.address, placed.word, shift placed.line⟩

@[simp] theorem PlacedWord.moved_id : PlacedWord.moved id = id := rfl

/-- The second program is the first with labels renamed and lines moved, and with the same warnings as
far as they are observed. -/
structure Program.Counterpart {β : Type} (observe : Warning → β) (rename : Text → Text)
    (shift : Int → Int) (program other : Program) : Prop where
  words : other.image.words = program.image.words.map (PlacedWord.moved shift)
  symbols : other.symbols = program.symbols.map (Prod.map rename id)
  log : other.log.map observe = program.log.map (observe ∘ Warning.moved rename shift)

/-- Two runs stopped for reasons of the same family, and the line is the same but for having moved. -/
inductive Abort.Agrees (shift : Int → Int) : Abort → Abort → Prop
  | error {report other : Error} (hcategory : other.cause.category = report.cause.category)
      (hline : other.line = report.line.map shift) : Agrees shift (.error report) (.error other)
  | numeral {fault other : Text.NumeralTooLong} : Agrees shift (.numeral fault) (.numeral other)

/-- Both runs end with a program, or both stop for reasons that agree. -/
inductive Run.Corresponds (shift : Int → Int) (R : Program → Program → Prop) (run other : Run) : Prop
  | assembled {program counterpart : Program} (hrun : run.outcome = .ok program)
      (hother : other.outcome = .ok counterpart) (hrelated : R program counterpart)
  | stopped {abort counterpart : Abort} (hrun : run.outcome = .error abort)
      (hother : other.outcome = .error counterpart) (hagrees : abort.Agrees shift counterpart)

namespace Run

variable {shift : Int → Int} {R S : Program → Program → Prop} {run other : Run}

theorem Corresponds.mono (hcorresponds : run.Corresponds shift R other)
    (himp : ∀ program counterpart, R program counterpart → S program counterpart) :
    run.Corresponds shift S other := by
  cases hcorresponds with
  | assembled hrun hother hrelated => exact .assembled hrun hother (himp _ _ hrelated)
  | stopped hrun hother hagrees => exact .stopped hrun hother hagrees

theorem Corresponds.of_stopsAt {place moved : Place} {raw text : Text} {category : Error.Category}
    (hrun : run.StopsAt place raw category) (hother : other.StopsAt moved text category)
    (hline : moved.line = shift place.line) : run.Corresponds shift R other := by
  obtain ⟨cause, hcause, hrun⟩ := hrun
  obtain ⟨counterpart, hcounterpart, hother⟩ := hother
  refine .stopped hrun hother (.error (hcounterpart.trans hcause.symm) ?_)
  simp [Error.line, hline]

theorem Corresponds.of_meets {options : Options} {lines others : List Text}
    (hmeets : Source.MeetsLongNumeral options.strictFlags (lines.map Text.dropLineEnds))
    (hmeetsOther : Source.MeetsLongNumeral options.strictFlags (others.map Text.dropLineEnds))
    (file : Text) :
    (ofLines options file lines).Corresponds shift R (ofLines options file others) := by
  obtain ⟨fault, hrun⟩ := exists_numeral_of_meets hmeets file
  obtain ⟨otherFault, hother⟩ := exists_numeral_of_meets hmeetsOther file
  exact .stopped hrun hother .numeral

/-- If there are warnings in both programs or in none, it makes no difference whether they count as
errors. -/
theorem Corresponds.of_lenient {options : Options} {file : Text} {lines others : List Text}
    (hcorresponds : (ofLines { options with warningsAsErrors := false } file lines).Corresponds shift R
      (ofLines { options with warningsAsErrors := false } file others))
    (hlog : ∀ program counterpart, R program counterpart →
      (counterpart.log = [] ↔ program.log = [])) :
    (ofLines options file lines).Corresponds shift R (ofLines options file others) := by
  have houtcome : ∀ source, (ofLines options file source).outcome =
      (ofLines { options with warningsAsErrors := false } file source).outcome.bind
        (judge options) := by
    intro source
    rw [ofLines_eq_judge]
  cases hcorresponds with
  | stopped hrun hother hagrees =>
      refine .stopped ?_ ?_ hagrees
      · rw [houtcome, hrun]
        rfl
      · rw [houtcome, hother]
        rfl
  | @assembled program counterpart hrun hother hrelated =>
      have hjudged : (ofLines options file lines).outcome = judge options program := by
        rw [houtcome, hrun]
        rfl
      have hjudgedOther : (ofLines options file others).outcome = judge options counterpart := by
        rw [houtcome, hother]
        rfl
      have hempty : counterpart.log.isEmpty = program.log.isEmpty := by
        rw [Bool.eq_iff_iff, List.isEmpty_iff, List.isEmpty_iff]
        exact hlog program counterpart hrelated
      by_cases hescalates : (options.warningsAsErrors && !program.log.isEmpty) = true
      · refine .stopped (hjudged.trans (if_pos hescalates))
          (hjudgedOther.trans (if_pos (hempty ▸ hescalates))) (.error rfl rfl)
      · exact .assembled (hjudged.trans (if_neg hescalates))
          (hjudgedOther.trans (if_neg (hempty ▸ hescalates))) hrelated

end Run

namespace Edit

/-- Either all lines of both sources are in order, or there is a first line that is not, and it is the
first in both. -/
theorem forall_or_first_not {R : Text → Text → Prop} {P Q : Text → Prop} {edit : Edit}
    (hfollows : ∀ line ∈ edit, line.Follows R) (hblank : ∀ text, Line.kind text = .blank → Q text)
    (hiff : ∀ raw text, R raw text → (Q text ↔ P raw)) :
    ((∀ raw ∈ originals edit, P raw) ∧ ∀ text ∈ texts edit, Q text) ∨
      ∃ front raw text rest, edit = front ++ ⟨some raw, text⟩ :: rest ∧ R raw text ∧
        (∀ raw ∈ originals front, P raw) ∧ (∀ text ∈ texts front, Q text) ∧ ¬ P raw := by
  induction edit with
  | nil => exact .inl ⟨by simp, by simp⟩
  | cons line rest ih =>
      have hrest := ih fun other hmem => hfollows other (List.mem_cons_of_mem line hmem)
      cases hfollows line List.mem_cons_self with
      | @inserted text hline =>
          rcases hrest with ⟨hall, hothers⟩ | ⟨front, raw, other, after, rfl, hrelated, hfirst⟩
          · exact .inl ⟨hall, List.forall_mem_cons.mpr ⟨hblank text hline, hothers⟩⟩
          · refine .inr ⟨⟨none, text⟩ :: front, raw, other, after, rfl, hrelated, hfirst.1, ?_,
              hfirst.2.2⟩
            exact List.forall_mem_cons.mpr ⟨hblank text hline, hfirst.2.1⟩
      | @kept raw text hrelated =>
          by_cases hraw : P raw
          · have htext : Q text := (hiff raw text hrelated).mpr hraw
            rcases hrest with ⟨hall, hothers⟩ | ⟨front, bad, other, after, rfl, hbad, hfirst⟩
            · exact .inl ⟨List.forall_mem_cons.mpr ⟨hraw, hall⟩,
                List.forall_mem_cons.mpr ⟨htext, hothers⟩⟩
            · exact .inr ⟨⟨some raw, text⟩ :: front, bad, other, after, rfl, hbad,
                List.forall_mem_cons.mpr ⟨hraw, hfirst.1⟩,
                List.forall_mem_cons.mpr ⟨htext, hfirst.2.1⟩, hfirst.2.2⟩
          · exact .inr ⟨[], raw, text, rest, rfl, hrelated, by simp, by simp, hraw⟩

end Edit

namespace Line

theorem readable_of_blank {raw : Text} (hblank : kind raw = .blank) : Readable raw := by
  refine ⟨by simp [Sound, hblank], ?_⟩
  simp [Converts, hblank]

theorem not_fault_of_blank {strict : Bool} {source : List Text} {raw : Text}
    (hblank : kind raw = .blank) (category : Error.Category) :
    ¬ Fault strict source raw category := by
  intro hfault
  have htakes := hfault.takesWord
  rw [takesWord_of_blank hblank] at htakes
  contradiction

end Line

section Edited

variable {β : Type} {observe : Warning → β} {rename : Text → Text} {shift : Int → Int} {edit : Edit}
  {options : Options} {file : Text} {lines others : List Text}
  (horiginals : lines.map Text.dropLineEnds = edit.originals)
  (htexts : others.map Text.dropLineEnds = edit.texts)
  (hapart : Text.KeepsNamesApart rename) (htracks : edit.Tracks shift)
  (hfollows : ∀ line ∈ edit, line.Follows (Line.Counterpart observe rename))

include hfollows in
theorem Edit.follows_laidOutAs : ∀ line ∈ edit, line.Follows (Line.LaidOutAs rename) :=
  fun line hmem => (hfollows line hmem).mono fun _ _ => Line.Counterpart.laidOutAs

include hapart htracks hfollows in
/-- The symbols of the edited source are those of the source under their new names. -/
theorem Edit.renamedSymbols (file : Text) :
    RenamedSymbols rename (Source.symbols file edit.originals) (Source.symbols file edit.texts) := by
  intro label hname
  exact Edit.lookup_symbols_texts hapart htracks (Edit.follows_laidOutAs hfollows) file hname

include hapart htracks hfollows in
/-- The outputs of the edited source are those of the source with lines moved. -/
theorem Edit.outputs_texts (strict : Bool) (file : Text) :
    ((Source.positions edit.texts).filterMap
        (Position.output? strict file (Source.symbols file edit.texts))).map
        (Prod.map id (List.map observe)) =
      ((Source.positions edit.originals).filterMap
        (Position.output? strict file (Source.symbols file edit.originals))).map
        (Prod.map (PlacedWord.moved shift) (List.map (observe ∘ Warning.moved rename shift))) := by
  have hlayout := Edit.follows_laidOutAs hfollows
  have hsymbols := Edit.renamedSymbols hapart htracks hfollows file
  apply Edit.filterMap_positions hfollows
  · intro position hblank
    rw [Position.output?, Line.output?_of_not_takesWord (Line.takesWord_of_blank hblank)]
    rfl
  · intro front raw text rest hedit
    have hkeeps := Edit.keeps_of_append htracks hlayout hedit
    have hline : Line.Counterpart observe rename raw text := by
      cases hfollows ⟨some raw, text⟩ (by simp [hedit]) with
      | kept hcounterpart => exact hcounterpart
    have houtput := congrArg
      (Option.map fun made => (PlacedWord.mk (Position.counter ⟨originals front, raw⟩) made.1
        (shift (Position.number ⟨originals front, raw⟩)), made.2))
      (hline.output? hsymbols strict shift (Position.place file ⟨originals front, raw⟩))
    simp only [Position.output?, hkeeps.place, hkeeps.counter, hkeeps.number, Option.map_map]
      at houtput ⊢
    exact houtput

include horiginals htexts hapart htracks hfollows in
/-- The programs that the two sources are assembled to are the same up to names and lines. -/
theorem Edit.program_counterpart {program counterpart : Program}
    (hrun : (Run.ofLines options file lines).outcome = .ok program)
    (hother : (Run.ofLines options file others).outcome = .ok counterpart) :
    program.Counterpart observe rename shift counterpart := by
  have hlayout := Edit.follows_laidOutAs hfollows
  obtain ⟨_, hassembled⟩ := Run.assembled_of_outcome hrun
  obtain ⟨_, hassembledOther⟩ := Run.assembled_of_outcome hother
  rw [horiginals] at hassembled
  rw [htexts] at hassembledOther
  have hsymbols := hassembled.symbols
  have hsymbolsOther := hassembledOther.symbols
  have houtputs := Edit.outputs_texts hapart htracks hfollows options.strictFlags file
  have hsurvey : (Source.positions edit.texts).flatMap (Position.surveyWarnings file) =
      (Source.positions edit.originals).flatMap
        (fun position => (position.surveyWarnings file).map (Warning.moved rename shift)) := by
    apply Edit.flatMap_positions hfollows
    · intro position hblank
      exact Position.surveyWarnings_of_blank hblank file
    · intro front raw text rest hedit
      exact (Edit.keeps_of_append htracks hlayout hedit).surveyWarnings hapart file
  refine ⟨?_, ?_, ?_⟩
  · have hwords := congrArg (List.map Prod.fst) houtputs
    rw [List.map_map, List.map_map] at hwords
    rw [hassembled.words_eq, hassembledOther.words_eq, hsymbols, hsymbolsOther, List.map_map]
    exact hwords
  · rw [hsymbols, hsymbolsOther]
    exact Edit.symbols_texts hapart htracks hlayout file
  · have hlog := congrArg (List.flatMap Prod.snd) houtputs
    rw [hassembled.log_eq_outputs, hassembledOther.log_eq_outputs, hsymbols, hsymbolsOther, hsurvey]
    simp only [List.map_append, List.map_flatMap, List.flatMap_map, Prod.map_snd, List.map_map]
      at hlog ⊢
    rw [hlog]

include hapart htracks hfollows in
/-- A line of the edited source has the faults of the line that it stands for. -/
theorem Edit.fault_texts_iff {raw text : Text} (hline : Line.Counterpart observe rename raw text)
    (strict : Bool) (category : Error.Category) :
    Line.Fault strict edit.texts text category ↔ Line.Fault strict edit.originals raw category := by
  rw [← Line.fault?_eq_some_iff strict [], ← Line.fault?_eq_some_iff strict [],
    hline.fault? (Edit.renamedSymbols hapart htracks hfollows []) strict]

include horiginals htexts htracks in
/-- If a line cannot be read, the first such line stops both runs. -/
theorem Run.corresponds_of_not_readable {R : Program → Program → Prop} {front rest : Edit}
    {raw text : Text} (hedit : edit = front ++ ⟨some raw, text⟩ :: rest)
    (hline : Line.Counterpart observe rename raw text)
    (hfront : ∀ line ∈ front.originals, Line.Readable line)
    (hfrontTexts : ∀ line ∈ front.texts, Line.Readable line) (hbad : ¬ Line.Readable raw) :
    (ofLines options file lines).Corresponds shift R (ofLines options file others) := by
  have hsource : lines.map Text.dropLineEnds = front.originals ++ raw :: rest.originals := by
    simp [horiginals, hedit]
  have hother : others.map Text.dropLineEnds = front.texts ++ text :: rest.texts := by
    simp [htexts, hedit]
  by_cases hlong : Line.LongArgument raw
  · exact .of_meets (.argument hsource hfront hlong)
      (.argument hother hfrontTexts (hline.longArgument_iff.mpr hlong)) file
  · exact .of_stopsAt (stopsAt_of_not_readable hsource hfront hbad hlong)
      (stopsAt_of_not_readable hother hfrontTexts (mt hline.readable_iff.mp hbad)
        (mt hline.longArgument_iff.mp hlong))
      (htracks front raw text rest hedit).symm

include horiginals htexts hapart htracks hfollows in
/-- If all lines can be read but one has a fault, the first such line stops both runs. -/
theorem Run.corresponds_of_fault {R : Program → Program → Prop} {front rest : Edit}
    {raw text : Text} {category : Error.Category}
    (hreadable : ∀ line ∈ edit.originals, Line.Readable line)
    (hreadableTexts : ∀ line ∈ edit.texts, Line.Readable line)
    (hedit : edit = front ++ ⟨some raw, text⟩ :: rest)
    (hline : Line.Counterpart observe rename raw text)
    (hfront : ∀ line ∈ front.originals, ∀ other,
      ¬ Line.Fault options.strictFlags edit.originals line other)
    (hfrontTexts : ∀ line ∈ front.texts, ∀ other,
      ¬ Line.Fault options.strictFlags edit.texts line other)
    (hfault : Line.Fault options.strictFlags edit.originals raw category) :
    (ofLines options file lines).Corresponds shift R (ofLines options file others) := by
  have hsource : edit.originals = front.originals ++ raw :: rest.originals := by
    simp [hedit]
  have hother : edit.texts = front.texts ++ text :: rest.texts := by
    simp [hedit]
  have hfaultText := (Edit.fault_texts_iff hapart htracks hfollows hline options.strictFlags
    category).mpr hfault
  by_cases hlong : Line.LongOperand raw
  · have hmeets : Source.MeetsLongNumeral options.strictFlags (lines.map Text.dropLineEnds) := by
      rw [horiginals]
      exact .operand hsource hreadable hfront hlong
    have hmeetsTexts :
        Source.MeetsLongNumeral options.strictFlags (others.map Text.dropLineEnds) := by
      rw [htexts]
      exact .operand hother hreadableTexts hfrontTexts (hline.longOperand_iff.mpr hlong)
    exact .of_meets hmeets hmeetsTexts file
  · rw [← horiginals] at hsource hreadable hfront hfault
    rw [← htexts] at hother hreadableTexts hfrontTexts hfaultText
    exact .of_stopsAt (stopsAt_of_readable hsource hreadable hfront hfault hlong)
      (stopsAt_of_readable hother hreadableTexts hfrontTexts hfaultText
        (mt hline.longOperand_iff.mp hlong))
      (htracks front raw text rest hedit).symm

include horiginals htexts hapart htracks hfollows in
/-- Two sources whose lines are counterparts of each other lead to runs that correspond. -/
theorem Run.corresponds_of_edit (options : Options) (file : Text) :
    (ofLines options file lines).Corresponds shift (Program.Counterpart observe rename shift)
      (ofLines options file others) := by
  apply Corresponds.of_lenient
  · rcases Edit.forall_or_first_not hfollows (fun _ => Line.readable_of_blank)
        (fun _ _ hline => hline.readable_iff) with
      ⟨hreadable, hreadableTexts⟩ | ⟨front, raw, text, rest, hedit, hline, hfront, hothers, hbad⟩
    · rcases Edit.forall_or_first_not
          (Q := fun text => ∀ category, ¬ Line.Fault options.strictFlags edit.texts text category)
          hfollows (fun _ hblank => Line.not_fault_of_blank hblank)
          (fun _ _ hline => forall_congr' fun category => not_congr
            (Edit.fault_texts_iff hapart htracks hfollows hline options.strictFlags category)) with
        ⟨hnone, hnoneTexts⟩ | ⟨front, raw, text, rest, hedit, hline, hfront, hothers, hbad⟩
      · rw [← horiginals] at hreadable hnone
        rw [← htexts] at hreadableTexts hnoneTexts
        obtain ⟨program, hrun⟩ : ∃ program, (ofLines { options with warningsAsErrors := false } file
            lines).outcome = .ok program := exists_program_of_readable rfl hreadable hnone
        obtain ⟨counterpart, hother⟩ : ∃ counterpart,
            (ofLines { options with warningsAsErrors := false } file others).outcome =
              .ok counterpart := exists_program_of_readable rfl hreadableTexts hnoneTexts
        exact .assembled hrun hother
          (Edit.program_counterpart horiginals htexts hapart htracks hfollows hrun hother)
      · obtain ⟨category, hfault⟩ := not_forall_not.mp hbad
        exact corresponds_of_fault horiginals htexts hapart htracks hfollows hreadable
          hreadableTexts hedit hline hfront hothers hfault
    · exact corresponds_of_not_readable horiginals htexts htracks hedit hline hfront
        hothers hbad
  · intro program counterpart hprograms
    have hlength := congrArg List.length hprograms.log
    rw [List.length_map, List.length_map] at hlength
    rw [← List.length_eq_zero_iff, hlength, List.length_eq_zero_iff]

end Edited

def EditedLine.stripped (line : EditedLine) : EditedLine :=
  ⟨line.original.map Text.dropLineEnds, Text.dropLineEnds line.text⟩

namespace Edit

def stripped (edit : Edit) : Edit :=
  edit.map EditedLine.stripped

theorem originals_stripped (edit : Edit) :
    originals (stripped edit) = (originals edit).map Text.dropLineEnds := by
  simp only [originals, stripped, List.filterMap_map, List.map_filterMap]
  rfl

theorem texts_stripped (edit : Edit) :
    texts (stripped edit) = (texts edit).map Text.dropLineEnds := by
  simp only [texts, stripped, List.map_map]
  rfl

theorem index_stripped (edit : Edit) (line : Nat) : index (stripped edit) line = index edit line := by
  induction edit generalizing line with
  | nil => rfl
  | cons edited rest ih =>
      rcases edited with ⟨_ | raw, text⟩
      · exact congrArg (· + 1) (ih line)
      · cases line with
        | zero => rfl
        | succ line => exact congrArg (· + 1) (ih line)

theorem tracks_stripped (edit : Edit) : Tracks (shift edit) (stripped edit) := by
  have hshift : shift (stripped edit) = shift edit := by
    funext line
    rw [shift, index_stripped, shift]
  rw [← hshift]
  exact tracks_shift (stripped edit)

/-- Sources whose lines are related one by one are an edit without inserted lines. -/
theorem exists_of_forall₂ {R : Text → Text → Prop} {lines others : List Text}
    (hrelated : List.Forall₂ R lines others) :
    ∃ edit : Edit, originals edit = lines ∧ texts edit = others ∧
      ∀ line ∈ edit, line.original.isSome = true ∧ line.Follows R := by
  induction hrelated with
  | nil => exact ⟨[], rfl, rfl, by simp⟩
  | @cons raw text _ _ hline _ ih =>
      obtain ⟨edit, rfl, rfl, hfollows⟩ := ih
      refine ⟨⟨some raw, text⟩ :: edit, rfl, rfl, ?_⟩
      exact List.forall_mem_cons.mpr ⟨⟨rfl, .kept hline⟩, hfollows⟩

end Edit

/-- A counterpart stays one without the terminators. -/
theorem Line.Counterpart.dropLineEnds {β : Type} {observe : Warning → β} {rename : Text → Text}
    {raw text : Text} (hcounterpart : Counterpart observe rename raw text) :
    Counterpart observe rename (Text.dropLineEnds raw) (Text.dropLineEnds text) := by
  constructor
  · simpa using hcounterpart.kind
  · simpa using hcounterpart.label
  · simpa using hcounterpart.origin
  · simpa using hcounterpart.value
  · simpa using hcounterpart.convertible
  · simpa using hcounterpart.keyword
  · simpa using hcounterpart.operands

/-- If every line of a source is replaced by a counterpart, the two runs correspond, and lines keep their
numbers. -/
theorem Run.corresponds_of_forall₂ {β : Type} {observe : Warning → β} {rename : Text → Text}
    (hapart : Text.KeepsNamesApart rename) {lines others : List Text}
    (hlines : List.Forall₂ (Line.Counterpart observe rename) lines others) (options : Options)
    (file : Text) :
    (ofLines options file lines).Corresponds id (Program.Counterpart observe rename id)
      (ofLines options file others) := by
  have hstripped : List.Forall₂ (Line.Counterpart observe rename) (lines.map Text.dropLineEnds)
      (others.map Text.dropLineEnds) := by
    rw [List.forall₂_map_left_iff, List.forall₂_map_right_iff]
    exact hlines.imp fun _ _ => Line.Counterpart.dropLineEnds
  obtain ⟨edit, horiginals, htexts, hedit⟩ := Edit.exists_of_forall₂ hstripped
  exact corresponds_of_edit horiginals.symm htexts.symm hapart
    (Edit.tracks_id fun line hmem => (hedit line hmem).1) (fun line hmem => (hedit line hmem).2)
    options file

end TwoPass
