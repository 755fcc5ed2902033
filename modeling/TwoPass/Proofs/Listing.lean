import TwoPass.Proofs.Assembly
import TwoPass.Proofs.Machine.Octal
import TwoPass.Proofs.Text.Lines

/-!
# What a listing tells

A listing has one line for each source line.  The first character of a listing line tells whether the
line has a word, and so how many characters stand before the source line, whatever that line looks like
itself.  Source and load file can both be read off the listing, and the load file tells the words.
-/

namespace TwoPass

namespace Image

/-- The listing line has an address and a word, and not spaces, in front of its source line. -/
def carriesWord (line : Text) : Bool :=
  line.head? != some ' '

/-- The source line behind the columns of a listing line. -/
def sourceOf (line : Text) : Text :=
  if carriesWord line then line.drop 14 else line.drop 8

theorem carriesWord_text (placed : PlacedWord) (raw : Text) :
    carriesWord (placed.text ++ .char ' ' :: raw) = true := by
  obtain ⟨c, rest, htext, hne⟩ := placed.head?_text
  simp [carriesWord, htext, hne]

theorem sourceOf_text (placed : PlacedWord) (raw : Text) :
    sourceOf (placed.text ++ .char ' ' :: raw) = raw := by
  rw [sourceOf, if_pos (carriesWord_text placed raw), List.drop_append, placed.length_text,
    List.drop_eq_nil_of_le (by rw [placed.length_text]; decide)]
  rfl

theorem take_text (placed : PlacedWord) (raw : Text) :
    (placed.text ++ .char ' ' :: raw).take 13 = placed.text := by
  rw [← placed.length_text]
  exact List.take_left

theorem carriesWord_spaces (raw : Text) :
    carriesWord (List.replicate 8 (.char ' ') ++ raw) = false := rfl

theorem sourceOf_spaces (raw : Text) : sourceOf (List.replicate 8 (.char ' ') ++ raw) = raw := rfl

/-- A word is found by its line if no two words have the same line. -/
theorem wordAt?_of_mem {words : List PlacedWord} (hnodup : (words.map PlacedWord.line).Nodup)
    {placed : PlacedWord} (hmem : placed ∈ words) :
    wordAt? words.reverse placed.line = some placed := by
  cases hfind : wordAt? words.reverse placed.line with
  | none =>
      have hnone := List.find?_eq_none.mp hfind placed (List.mem_reverse.mpr hmem)
      simp at hnone
  | some other =>
      have hother : other ∈ words := List.mem_reverse.mp (List.mem_of_find?_eq_some hfind)
      have hline : other.line = placed.line := by simpa using List.find?_some hfind
      rw [List.inj_on_of_nodup_map hnodup hother hmem hline]

/-- A record with a word is listed behind it. -/
theorem listingLine_of_mem {words : List PlacedWord} (hnodup : (words.map PlacedWord.line).Nodup)
    {placed : PlacedWord} (hmem : placed ∈ words) {record : Record}
    (hline : placed.line = record.line) :
    listingLine words.reverse record = placed.text ++ .char ' ' :: record.raw := by
  have hfound := wordAt?_of_mem hnodup hmem
  rw [listingLine, ← hline, hfound]

/-- A record without a word is listed behind spaces. -/
theorem listingLine_of_not_mem {words : List PlacedWord} {record : Record}
    (hline : record.line ∉ words.map PlacedWord.line) :
    listingLine words.reverse record = List.replicate 8 (.char ' ') ++ record.raw := by
  have hnone : wordAt? words.reverse record.line = none := by
    apply List.find?_eq_none.mpr
    intro placed hplaced hequal
    apply hline
    rw [← beq_iff_eq.mp hequal]
    exact List.mem_map_of_mem (List.mem_reverse.mp hplaced)
  rw [listingLine, hnone]

end Image

/-- Digits end no line. -/
theorem Word.isLine_octal (word : Word) : Text.IsLine word.octal := by
  intro c hmem
  obtain ⟨place, -, rfl⟩ := List.mem_map.mp hmem
  have hall : ∀ digit < 8, Text.isLineEnd (Nat.digitChar digit) = false := by decide
  exact hall _ (Nat.mod_lt _ (by decide))

theorem PlacedWord.isLine_text (placed : PlacedWord) : Text.IsLine placed.text :=
  (Word.isLine_octal _).append ((Word.isLine_octal _).cons (by decide))

/-- The load file is cut into the lines it was joined from. -/
theorem PlacedWord.encodable_text (placed : PlacedWord) : Utf8.Encodable placed.text := by
  simp [PlacedWord.text, octalOfInt, Word.encodable_octal]

theorem Image.encodable_load (image : Image) : Utf8.Encodable image.load := by
  apply Utf8.encodable_unlines
  intro line hline
  obtain ⟨placed, -, rfl⟩ := List.mem_map.mp hline
  exact placed.encodable_text

theorem Image.encodable_listing {image : Image}
    (hrecords : ∀ record ∈ image.records, Utf8.Encodable record.raw) :
    Utf8.Encodable image.listing := by
  apply Utf8.encodable_unlines
  intro line hline
  obtain ⟨record, hrecord, rfl⟩ := List.mem_map.mp hline
  have hraw := hrecords record hrecord
  rw [Image.listingLine]
  split
  · rename_i placed _
    simp [placed.encodable_text, hraw]
  · simp [List.replicate, hraw]

theorem Image.lines_load (image : Image) : Text.lines image.load = image.loadLines := by
  apply Text.lines_unlines
  intro line hline
  obtain ⟨placed, -, rfl⟩ := List.mem_map.mp hline
  exact placed.isLine_text

namespace Source

/-- No two lines of a source have the same number. -/
theorem nodup_map_number (source : List Text) : ((positions source).map Position.number).Nodup := by
  induction source using List.reverseRecOn with
  | nil => exact List.nodup_nil
  | append_singleton before raw ih =>
      rw [positions_append_singleton, List.map_append]
      refine List.Nodup.append ih (List.nodup_singleton _) ?_
      intro number hbefore hlast
      obtain ⟨position, hposition, rfl⟩ := List.mem_map.mp hbefore
      obtain ⟨after, hsplit⟩ := (mem_positions_iff position before).mp hposition
      have hlength := congrArg List.length hsplit
      simp only [List.length_append, List.length_cons] at hlength
      simp only [List.map_cons, List.map_nil, List.mem_singleton, Position.number] at hlast
      omega

end Source

namespace Assembled

variable {options : Options} {file : Text} {source : List Text} {program : Program}
  {outputs : List (PlacedWord × Log)}

/-- The words have the numbers of the word lines, in order. -/
theorem map_line_words (hassembled : Assembled options file source program outputs) :
    program.image.words.map PlacedWord.line =
      (Source.wordPositions source).map Position.number := by
  rw [hassembled.words, List.map_map]
  apply map_eq_map_of_forall₂
  exact hassembled.yields.flip.imp fun output position hyields => hyields.line

theorem nodup_map_line (hassembled : Assembled options file source program outputs) :
    (program.image.words.map PlacedWord.line).Nodup := by
  rw [hassembled.map_line_words]
  exact (Source.nodup_map_number source).sublist (List.filter_sublist.map _)

/-- The listing line of a word line has its word in front. -/
theorem listingLine_of_mem (hassembled : Assembled options file source program outputs)
    {position : Position} {output : PlacedWord × Log} (hmem : output ∈ outputs)
    (hyields : position.Yields options file program.symbols output) :
    Image.listingLine program.image.words.reverse (position.record file) =
      output.1.text ++ .char ' ' :: position.raw := by
  have hplaced : output.1 ∈ program.image.words := by
    rw [hassembled.words]
    exact List.mem_map_of_mem hmem
  exact Image.listingLine_of_mem hassembled.nodup_map_line hplaced hyields.line

/-- The listing line of any other line has spaces in front. -/
theorem listingLine_of_not_takesWord (hassembled : Assembled options file source program outputs)
    {position : Position} (hposition : position ∈ Source.positions source)
    (hword : Line.takesWord position.raw = false) :
    Image.listingLine program.image.words.reverse (position.record file) =
      List.replicate 8 (.char ' ') ++ position.raw := by
  apply Image.listingLine_of_not_mem
  rw [hassembled.map_line_words]
  intro hline
  obtain ⟨other, hother, hnumber⟩ := List.mem_map.mp hline
  obtain ⟨hmem, htakes⟩ := (Source.mem_wordPositions_iff other source).mp hother
  rw [Source.position_eq_of_number_eq hmem hposition hnumber, hword] at htakes
  contradiction

/-- A listing line shows by its first character whether its source line is a word line, and has the
source line behind its columns. -/
theorem listingLine_of_position (hassembled : Assembled options file source program outputs)
    {position : Position} (hposition : position ∈ Source.positions source) :
    Image.carriesWord
        (Image.listingLine program.image.words.reverse (position.record file)) =
      Line.takesWord position.raw ∧
    Image.sourceOf (Image.listingLine program.image.words.reverse (position.record file)) =
      position.raw := by
  cases hword : Line.takesWord position.raw with
  | true =>
      obtain ⟨output, hmem, hyields⟩ := hassembled.exists_output hposition hword
      rw [hassembled.listingLine_of_mem hmem hyields]
      exact ⟨Image.carriesWord_text _ _, Image.sourceOf_text _ _⟩
  | false =>
      rw [hassembled.listingLine_of_not_takesWord hposition hword]
      exact ⟨Image.carriesWord_spaces _, Image.sourceOf_spaces _⟩

theorem isLine_listingLine (hassembled : Assembled options file source program outputs)
    {position : Position} (hposition : position ∈ Source.positions source)
    (hraw : Text.IsLine position.raw) :
    Text.IsLine (Image.listingLine program.image.words.reverse (position.record file)) := by
  cases hword : Line.takesWord position.raw with
  | true =>
      obtain ⟨output, hmem, hyields⟩ := hassembled.exists_output hposition hword
      rw [hassembled.listingLine_of_mem hmem hyields]
      exact output.1.isLine_text.append (hraw.cons (by decide))
  | false =>
      rw [hassembled.listingLine_of_not_takesWord hposition hword]
      refine Text.IsLine.append ?_ hraw
      intro c hmem
      rw [List.eq_of_mem_replicate hmem]
      decide

/-- The words are in the first columns of the listing lines that carry one, in order. -/
theorem map_take_listingLine (hassembled : Assembled options file source program outputs) :
    (Source.wordPositions source).map (fun position =>
        (Image.listingLine program.image.words.reverse (position.record file)).take 13) =
      program.image.loadLines := by
  have hload : program.image.loadLines = outputs.map (fun output => output.1.text) := by
    rw [Image.loadLines, hassembled.words, List.map_map]
    rfl
  rw [hload]
  symm
  apply map_eq_map_of_forall₂
  have hmem : ∀ output ∈ outputs, output ∈ outputs := fun _ hmem => hmem
  refine ((List.forall₂_and_left _ _).mpr ⟨hmem, hassembled.yields.flip⟩).imp ?_
  intro output position hpair
  rw [hassembled.listingLine_of_mem hpair.1 hpair.2]
  exact (Image.take_text _ _).symm

end Assembled

namespace Run

/-- The records of an assembled program are those of its lines. -/
theorem records_of_outcome {options : Options} {file : Text} {lines : List Text} {program : Program}
    (hrun : (ofLines options file lines).outcome = .ok program) :
    program.image.records =
      (Source.positions (lines.map Text.dropLineEnds)).map (Position.record file) := by
  rw [ofLines_of_readable (readable_of_outcome hrun), outcome_encode] at hrun
  cases hstop : (encoding options file (lines.map Text.dropLineEnds)).stop with
  | some abort => simp [hstop] at hrun
  | none =>
      rw [hstop] at hrun
      rw [judge_eq_ok hrun]

/-- The listing of a text without surrogates has none either. -/
theorem encodable_listing_of_outcome {options : Options} {file source : Text} {program : Program}
    (hrun : (ofText options file source).outcome = .ok program) (hsource : Utf8.Encodable source) :
    Utf8.Encodable program.image.listing := by
  apply Image.encodable_listing
  intro record hrecord
  rw [records_of_outcome hrun, Text.map_dropLineEnds_lines] at hrecord
  obtain ⟨position, hposition, rfl⟩ := List.mem_map.mp hrecord
  have hraw : position.raw ∈ Text.lines source := by
    rw [← Source.map_raw_positions (Text.lines source)]
    exact List.mem_map_of_mem hposition
  exact fun offset hmem => hsource offset (Text.mem_of_mem_lines hraw hmem).1

/-- The listing of a source text has one line for each line of the text. -/
theorem lines_listing_of_outcome {options : Options} {file source : Text} {program : Program}
    (hrun : (ofText options file source).outcome = .ok program) :
    Text.lines program.image.listing =
      (Source.positions (Text.lines source)).map (fun position =>
        Image.listingLine program.image.words.reverse (position.record file)) := by
  obtain ⟨outputs, hassembled⟩ := assembled_of_outcome hrun
  have hrecords := records_of_outcome hrun
  rw [Text.map_dropLineEnds_lines] at hassembled hrecords
  have hlines : program.image.listingLines =
      (Source.positions (Text.lines source)).map (fun position =>
        Image.listingLine program.image.words.reverse (position.record file)) := by
    rw [Image.listingLines, hrecords, List.map_map]
    rfl
  rw [Image.listing, Text.lines_unlines, hlines]
  intro line hline
  rw [hlines] at hline
  obtain ⟨position, hposition, rfl⟩ := List.mem_map.mp hline
  have hraw : position.raw ∈ Text.lines source := by
    rw [← Source.map_raw_positions (Text.lines source)]
    exact List.mem_map_of_mem hposition
  exact hassembled.isLine_listingLine hposition (Text.isLine_of_mem_lines hraw)

end Run

/-- The listing of a source text that is assembled

* has as many lines as the source, and the source line behind eight spaces or fourteen columns on each;
* has something else than a space in front on the lines of the word lines and on no others;
* has the load file in the first thirteen columns of these lines;

and the lines of the load file, read as two octal numbers, are the addresses modulo 65536 and the words
of the program. -/
theorem Run.listing_of_outcome {options : Options} {file source : Text} {program : Program}
    (hrun : (Run.ofText options file source).outcome = .ok program) :
    (Text.lines program.image.listing).length = (Text.lines source).length ∧
      (Text.lines program.image.listing).map Image.sourceOf = Text.lines source ∧
      (Text.lines program.image.listing).map Image.carriesWord =
        (Text.lines source).map Line.takesWord ∧
      ((Text.lines program.image.listing).filter Image.carriesWord).map (List.take 13) =
        Text.lines program.image.load ∧
      (Text.lines program.image.load).map PlacedWord.read? =
        program.image.words.map
          (fun placed => some ((placed.address % 65536).toNat, placed.word.toNat)) := by
  obtain ⟨outputs, hassembled⟩ := Run.assembled_of_outcome hrun
  rw [Text.map_dropLineEnds_lines] at hassembled
  have hraws := Source.map_raw_positions (Text.lines source)
  have hlisting := Run.lines_listing_of_outcome hrun
  refine ⟨?_, ?_, ?_, ?_, ?_⟩
  · rw [hlisting, List.length_map, ← congrArg List.length hraws, List.length_map]
  · rw [hlisting, List.map_map]
    refine (List.map_congr_left ?_).trans hraws
    exact fun position hmem => (hassembled.listingLine_of_position hmem).2
  · rw [hlisting, List.map_map, ← congrArg (List.map Line.takesWord) hraws, List.map_map]
    exact List.map_congr_left fun position hmem => (hassembled.listingLine_of_position hmem).1
  · have hfilter : (Source.positions (Text.lines source)).filter (fun position =>
        Image.carriesWord
          (Image.listingLine program.image.words.reverse (position.record file))) =
        Source.wordPositions (Text.lines source) :=
      List.filter_congr fun position hmem => (hassembled.listingLine_of_position hmem).1
    rw [hlisting, Image.lines_load, ← hassembled.map_take_listingLine, List.filter_map, List.map_map]
    exact congrArg _ hfilter
  · rw [Image.lines_load, Image.loadLines, List.map_map]
    exact List.map_congr_left fun placed _ => placed.read?_text

/-- A comment in the form of a listing line, and a word that lies beyond the last address. -/
theorem Run.listing_of_disguised_lines :
    ∃ program, (Run.ofText Options.default "a.asm".text
        "LOC 65535\r\n; 000011 000007\x0bx: HLT\n Data -2 ; 000011".text).outcome = .ok program ∧
      (Text.lines program.image.listing).map Image.sourceOf =
        ["LOC 65535".text, "; 000011 000007".text, "x: HLT".text,
          " Data -2 ; 000011".text] ∧
      (Text.lines program.image.load).map PlacedWord.read? = [some (65535, 0), some (0, 65534)] := by
  refine Run.exists_program (fun program => program.image.words.map
      (fun placed => some ((placed.address % 65536).toNat, placed.word.toNat)))
    [some (65535, 0), some (0, 65534)] (by decide +kernel) fun program hrun hwords => ?_
  obtain ⟨-, hsource, -, -, hload⟩ := Run.listing_of_outcome hrun
  exact ⟨hsource.trans (by decide +kernel), hload.trans hwords⟩

end TwoPass
