import TwoPass.Proofs.Source.Statement

/-!
# White space in a line

A line is read by its label, its first word and what follows the word.  White space around these parts
makes no difference, and neither does the terminator of a line.  What stands behind the first word has
no influence on the label.
-/

namespace TwoPass

namespace Text

theorem trimEnd_append_of_blank {blanks : Text} (hblank : ∀ c ∈ blanks, isBlank c = true)
    (text : Text) : trimEnd (text ++ blanks) = trimEnd text := by
  rw [trimEnd, List.reverse_append, List.dropWhile_append_of_pos (by simpa using hblank), trimEnd]

theorem trim_append_of_blank {blanks : Text} (hblank : ∀ c ∈ blanks, isBlank c = true)
    (text : Text) : trim (text ++ blanks) = trim text := by
  by_cases hall : ∀ c ∈ text, isBlank c = true
  · have hboth : ∀ c ∈ text ++ blanks, isBlank c = true := by
      intro c hmem
      exact (List.mem_append.mp hmem).elim (hall c) (hblank c)
    rw [(trim_eq_nil_iff _).mpr hboth, (trim_eq_nil_iff _).mpr hall]
  · have hstart : trimStart (text ++ blanks) = trimStart text ++ blanks := by
      rw [trimStart, List.dropWhile_append, if_neg, trimStart]
      simpa using hall
    rw [trim, hstart, trimEnd_append_of_blank hblank, trim]

theorem trim_append_of_blank_left {blanks : Text} (hblank : ∀ c ∈ blanks, isBlank c = true)
    (text : Text) : trim (blanks ++ text) = trim text := by
  rw [trim, trimStart, List.dropWhile_append_of_pos hblank, trim, trimStart]

/-- Trimming takes white space away and nothing else. -/
theorem exists_append_trim (text : Text) :
    ∃ lead trail, text = lead ++ (trim text ++ trail) ∧ (∀ c ∈ lead, isBlank c = true) ∧
      ∀ c ∈ trail, isBlank c = true := by
  refine ⟨text.takeWhile isBlank, (text.dropWhile isBlank).rtakeWhile isBlank, ?_,
    fun c hmem => List.mem_takeWhile_imp hmem, fun c hmem => List.mem_rtakeWhile_imp hmem⟩
  rw [trim_eq_rdropWhile, List.rdropWhile_append_rtakeWhile, List.takeWhile_append_dropWhile]

theorem eq_false_of_dropWhile_eq_cons {p : CodePoint → Bool} {text rest : Text} {c : CodePoint}
    (hdrop : text.dropWhile p = c :: rest) : p c = false := by
  have hhead := List.head?_dropWhile_not p text
  rw [hdrop] at hhead
  simpa using hhead

section FirstWord

variable {word tail : Text} (hword : ∀ c ∈ word, isBlank c = false)
  (htail : ∀ c ∈ tail.head?, isBlank c = true)

include hword htail

theorem firstWord_append : firstWord (word ++ tail) = word := by
  have hstop : tail.takeWhile (fun c => !isBlank c) = [] := by
    cases tail with
    | nil => rfl
    | cons c rest => simp [htail c rfl]
  rw [firstWord, List.takeWhile_append_of_pos (fun c hmem => by simp [hword c hmem]), hstop,
    List.append_nil]

theorem afterFirstWord_append : afterFirstWord (word ++ tail) = trim tail := by
  have hstop : tail.dropWhile (fun c => !isBlank c) = tail := by
    cases tail with
    | nil => rfl
    | cons c rest => simp [htail c rfl]
  rw [afterFirstWord, List.dropWhile_append_of_pos (fun c hmem => by simp [hword c hmem]), hstop]

end FirstWord

theorem trimEnd_word_append {word : Text} (hword : ∀ c ∈ word, isBlank c = false) (tail : Text) :
    trimEnd (word ++ tail) = word ++ trimEnd tail := by
  rw [trimEnd, List.reverse_append, List.dropWhile_append]
  split
  · rename_i hempty
    have hkept : word.reverse.dropWhile isBlank = word.reverse := by
      cases hreverse : word.reverse with
      | nil => rfl
      | cons c rest =>
          have hmem : c ∈ word := by
            rw [← List.mem_reverse, hreverse]
            exact List.mem_cons_self
          simp [hword c hmem]
    have hnil : trimEnd tail = [] := by
      rw [trimEnd, List.isEmpty_iff.mp hempty, List.reverse_nil]
    rw [hkept, hnil, List.reverse_reverse, List.append_nil]
  · rw [List.reverse_append, List.reverse_reverse, trimEnd]

/-- Behind a word white space is trimmed as it would be without the word. -/
theorem trim_word_append {lead word : Text} (hlead : ∀ c ∈ lead, isBlank c = true)
    (hword : ∀ c ∈ word, isBlank c = false) (hne : word ≠ []) (tail : Text) :
    trim (lead ++ (word ++ tail)) = word ++ trimEnd tail := by
  have hstart : trimStart (word ++ tail) = word ++ tail := by
    cases word with
    | nil => exact absurd rfl hne
    | cons c rest => simp [trimStart, hword c List.mem_cons_self]
  rw [trim_append_of_blank_left hlead, trim, hstart, trimEnd_word_append hword]

theorem trimEnd_append_rtakeWhile (text : Text) :
    trimEnd text ++ text.rtakeWhile isBlank = text :=
  List.rdropWhile_append_rtakeWhile

theorem trim_trimEnd (text : Text) : trim (trimEnd text) = trim text := by
  have hblank : ∀ c ∈ text.rtakeWhile isBlank, isBlank c = true :=
    fun c hmem => List.mem_rtakeWhile_imp hmem
  rw [← trim_append_of_blank hblank (trimEnd text), trimEnd_append_rtakeWhile]

/-- A text that consists of a word between white space and a tail behind it is read as these. -/
theorem firstWord_trim {lead word tail : Text} (hlead : ∀ c ∈ lead, isBlank c = true)
    (hword : ∀ c ∈ word, isBlank c = false) (hne : word ≠ [])
    (htail : ∀ c ∈ tail.head?, isBlank c = true) :
    firstWord (trim (lead ++ (word ++ tail))) = word ∧
      afterFirstWord (trim (lead ++ (word ++ tail))) = trim tail := by
  have hrest : ∀ c ∈ (trimEnd tail).head?, isBlank c = true := by
    intro c hhead
    apply htail c
    rw [← trimEnd_append_rtakeWhile tail, List.head?_append]
    simpa using Or.inl hhead
  rw [trim_word_append hlead hword hne]
  exact ⟨firstWord_append hword hrest,
    (afterFirstWord_append hword hrest).trans (trim_trimEnd tail)⟩

/-- The characters of a name are visible, and none of them ends a label or starts a comment. -/
theorem isPlain_of_isNameChar {c : CodePoint} (hchar : isNameChar c = true) : isPlain c = true := by
  rcases Bool.or_eq_true_iff.mp hchar with hstart | hdigit
  · have hcode := Line.toNat_of_isNameStart hstart
    have hcolon : c ≠ ':' := by
      rintro rfl
      exact absurd hcode (by decide)
    have hsemicolon : c ≠ ';' := by
      rintro rfl
      exact absurd hcode (by decide)
    simp [isPlain, hcolon, hsemicolon]
    omega
  · exact isPlain_of_isDigit hdigit

theorem isPlain_of_isName {name : Text} (hname : isName name = true) :
    ∀ c ∈ name, isPlain c = true :=
  fun c hmem => isPlain_of_isNameChar (Line.isNameChar_of_isName hname c hmem)

/-- No name is a numeral. -/
theorem not_isDigits_of_isName {name : Text} (hname : isName name = true) :
    isDigits (dropSign name) = false := by
  cases name with
  | nil => simp [isName] at hname
  | cons c rest =>
      have hstart : isNameStart c = true := by
        simp only [isName, Bool.and_eq_true] at hname
        exact hname.1
      have hplus : c ≠ '+' := by
        rintro rfl
        contradiction
      have hminus : c ≠ '-' := by
        rintro rfl
        contradiction
      have hkept : dropSign (c :: rest) = c :: rest := by
        unfold dropSign
        split <;> simp_all
      have hdigit : isDigit c = false := by
        by_contra hdigit
        have hdigitCode := toNat_of_isDigit (Bool.not_eq_false _ ▸ hdigit)
        have hcode := Line.toNat_of_isNameStart hstart
        omega
      simp [hkept, isDigits, hdigit]

end Text

namespace Line

/-- The tail takes no part in whether the text starts with a label. -/
theorem splitLabel_append_of_none {front tail : Text} (hnone : (Record.splitLabel front).1 = none)
    (htail : .char ':' ∉ tail ∨
      ((∃ c ∈ front, Text.isBlank c = false) ∧ ∀ c ∈ tail.head?, Text.isBlank c = true)) :
    (Record.splitLabel (front ++ tail)).1 = none := by
  rw [Option.eq_none_iff_forall_ne_some]
  intro label hlabel
  obtain ⟨rest, hsplit⟩ : ∃ rest, Record.splitLabel (front ++ tail) = (some label, rest) :=
    ⟨_, Prod.ext hlabel rfl⟩
  obtain ⟨indentation, hcode, hindentation, hname⟩ := (splitLabel_eq_some_iff _ _ _).mp hsplit
  have hfront : ∀ more, front ≠ indentation ++ (label ++ .char ':' :: more) := by
    intro more hfront
    rw [(splitLabel_eq_some_iff front label more).mpr ⟨indentation, hfront, hindentation, hname⟩]
      at hnone
    contradiction
  -- The colon stands in the tail, and in front of it there is only indentation.
  have hregroup : front ++ tail = (indentation ++ (label ++ [.char ':'])) ++ rest := by
    simpa using hcode
  rcases List.append_eq_append_iff.mp hregroup with ⟨inside, hinside, htailSplit⟩ |
    ⟨more, hmore, -⟩
  · cases inside with
    | nil => exact hfront [] (by simpa using hinside.symm)
    | cons c more =>
        rcases htail with hcolon | ⟨⟨solid, hsolid, hnot⟩, hhead⟩
        · apply hcolon
          have hlast : (c :: more).getLast? = some ':' := by
            rw [← List.getLast?_append_cons front c more, ← hinside]
            simp
          rw [htailSplit]
          exact List.mem_append_left _ (List.mem_of_getLast? hlast)
        · have hblank : Text.isBlank c = true := hhead c (by simp [htailSplit])
          rcases List.append_eq_append_iff.mp hinside with ⟨between, -, hlabelSplit⟩ |
            ⟨between, hindentationSplit, -⟩
          · have hmem : c ∈ label ++ [.char ':'] := by simp [hlabelSplit]
            rcases List.mem_append.mp hmem with hin | hin
            · rw [Text.isBlank_of_isPlain (Text.isPlain_of_isName hname c hin)] at hblank
              contradiction
            · rw [List.mem_singleton.mp hin] at hblank
              contradiction
          · have hmem : solid ∈ indentation := by
              rw [hindentationSplit]
              exact List.mem_append_left _ hsolid
            rw [isBlank_of_isAsciiBlank (hindentation solid hmem)] at hnot
            contradiction
  · exact hfront more (by simpa using hmore)

/-- A tail without a colon, or behind a first word, belongs to what follows the label. -/
theorem splitLabel_append {front tail : Text}
    (htail : .char ':' ∉ tail ∨
      ((∃ c ∈ front, Text.isBlank c = false) ∧ ∀ c ∈ tail.head?, Text.isBlank c = true)) :
    Record.splitLabel (front ++ tail) =
      ((Record.splitLabel front).1, (Record.splitLabel front).2 ++ tail) := by
  cases hlabel : (Record.splitLabel front).1 with
  | none =>
      have hnone := splitLabel_append_of_none hlabel htail
      exact Prod.ext hnone (by rw [splitLabel_of_none hnone, splitLabel_of_none hlabel])
  | some label =>
      obtain ⟨indentation, hfront, hname⟩ :=
        (splitLabel_eq_some_iff front label _).mp (Prod.ext hlabel rfl)
      apply (splitLabel_eq_some_iff _ _ _).mpr
      refine ⟨indentation, ?_, hname⟩
      nth_rewrite 1 [hfront]
      simp

/-- Where a label is not split off, it starts the first word of the line. -/
theorem firstWord_of_labelled {lead label : Text} (hlead : ∀ c ∈ lead, Text.isBlank c = true)
    (hname : Text.isName label = true) (rest : Text) :
    Text.firstWord (Text.trim (lead ++ (label ++ .char ':' :: rest))) =
      label ++ .char ':' :: Text.firstWord rest := by
  have hword : ∀ c ∈ label ++ .char ':' :: Text.firstWord rest, Text.isBlank c = false := by
    intro c hmem
    rcases List.mem_append.mp hmem with hin | hin
    · exact Text.isBlank_of_isPlain (Text.isPlain_of_isName hname c hin)
    · rcases List.mem_cons.mp hin with rfl | hin
      · decide
      · simpa using List.mem_takeWhile_imp hin
  have htail : ∀ c ∈ (rest.dropWhile (fun c => !Text.isBlank c)).head?, Text.isBlank c = true := by
    intro c hhead
    obtain ⟨more, hdrop⟩ := List.head?_eq_some_iff.mp hhead
    simpa using Text.eq_false_of_dropWhile_eq_cons hdrop
  have hrest : Text.firstWord rest ++ rest.dropWhile (fun c => !Text.isBlank c) = rest :=
    List.takeWhile_append_dropWhile
  have hread := (Text.firstWord_trim hlead hword (by simp) htail).1
  rwa [List.append_assoc, List.cons_append, hrest] at hread

/-- The text is a word between white space, and an argument behind the white space.  Without a word there
is no argument, and without white space behind the word there is none either. -/
structure Parts (text lead word gap argument : Text) : Prop where
  split : text = lead ++ (word ++ (gap ++ argument))
  blank_lead : ∀ c ∈ lead, Text.isBlank c = true
  solid_word : ∀ c ∈ word, Text.isBlank c = false
  blank_gap : ∀ c ∈ gap, Text.isBlank c = true
  of_word_nil : word = [] → gap ++ argument = []
  of_gap_nil : gap = [] → argument = []

/-- Every text has these parts. -/
theorem parts_of_text (text : Text) :
    Parts text (text.takeWhile Text.isBlank) (Text.firstWord (Text.trimStart text))
      (((Text.trimStart text).dropWhile (fun c => !Text.isBlank c)).takeWhile Text.isBlank)
      (((Text.trimStart text).dropWhile (fun c => !Text.isBlank c)).dropWhile Text.isBlank) where
  split := by
    rw [List.takeWhile_append_dropWhile, Text.firstWord, List.takeWhile_append_dropWhile,
      Text.trimStart, List.takeWhile_append_dropWhile]
  blank_lead c hmem := List.mem_takeWhile_imp hmem
  solid_word c hmem := by simpa using List.mem_takeWhile_imp hmem
  blank_gap c hmem := List.mem_takeWhile_imp hmem
  of_word_nil := by
    intro hword
    rw [List.takeWhile_append_dropWhile]
    cases hstart : Text.trimStart text with
    | nil => rfl
    | cons c rest =>
        have hsolid : Text.isBlank c = false := Text.eq_false_of_dropWhile_eq_cons hstart
        simp [hstart, Text.firstWord, hsolid] at hword
  of_gap_nil := by
    intro hgap
    cases htail : (Text.trimStart text).dropWhile (fun c => !Text.isBlank c) with
    | nil => rfl
    | cons c rest =>
        have hblank : Text.isBlank c = true := by
          simpa using Text.eq_false_of_dropWhile_eq_cons htail
        simp [htail, hblank] at hgap

section Parts

variable {text lead word gap argument : Text} (hparts : Parts text lead word gap argument)

include hparts

theorem Parts.isBlank_head : ∀ c ∈ (gap ++ argument).head?, Text.isBlank c = true := by
  intro c hhead
  cases hgap : gap with
  | nil => simp [hgap, hparts.of_gap_nil hgap] at hhead
  | cons first rest =>
      obtain rfl : first = c := by simpa [hgap] using hhead
      exact hparts.blank_gap first (hgap ▸ List.mem_cons_self)

theorem Parts.trim_eq_nil (hword : word = []) : Text.trim text = [] := by
  rw [Text.trim_eq_nil_iff, hparts.split, hparts.of_word_nil hword, hword, List.append_nil,
    List.append_nil]
  exact hparts.blank_lead

/-- Another argument may stand in the place of the argument. -/
theorem Parts.with_argument {other : Text} (hnil : argument = [] → other = []) :
    Parts (lead ++ (word ++ (gap ++ other))) lead word gap other where
  split := rfl
  blank_lead := hparts.blank_lead
  solid_word := hparts.solid_word
  blank_gap := hparts.blank_gap
  of_word_nil hword := by
    obtain ⟨hgap, hargument⟩ := List.append_eq_nil_iff.mp (hparts.of_word_nil hword)
    rw [hgap, hnil hargument, List.append_nil]
  of_gap_nil hgap := hnil (hparts.of_gap_nil hgap)

/-- The text is read as its word and its argument. -/
theorem Parts.read :
    Text.firstWord (Text.trim text) = word ∧
      Text.afterFirstWord (Text.trim text) = Text.trim argument := by
  by_cases hword : word = []
  · rw [hparts.trim_eq_nil hword, hword, (List.append_eq_nil_iff.mp (hparts.of_word_nil hword)).2]
    exact ⟨rfl, rfl⟩
  · have hread := Text.firstWord_trim hparts.blank_lead hparts.solid_word hword
      hparts.isBlank_head
    rwa [← hparts.split, Text.trim_append_of_blank_left hparts.blank_gap] at hread

theorem Parts.trim_eq_nil_iff : Text.trim text = [] ↔ word = [] := by
  refine ⟨fun htrim => ?_, hparts.trim_eq_nil⟩
  rw [← hparts.read.1, htrim]
  rfl

/-- Whether the text starts with a label is seen from its first word. -/
theorem Parts.label : (Record.splitLabel text).1 = (Record.splitLabel (lead ++ word)).1 := by
  rw [hparts.split, ← List.append_assoc]
  by_cases hword : word = []
  · rw [hparts.of_word_nil hword, List.append_nil]
  · obtain ⟨c, hc⟩ := List.exists_mem_of_ne_nil word hword
    have hsolid : ∃ c ∈ lead ++ word, Text.isBlank c = false :=
      ⟨c, List.mem_append_right lead hc, hparts.solid_word c hc⟩
    rw [splitLabel_append (.inr ⟨hsolid, hparts.isBlank_head⟩)]

end Parts

theorem append_dropLineEnds (raw : Text) :
    ∃ ends, raw = Text.dropLineEnds raw ++ ends ∧ ∀ c ∈ ends, c = '\r' ∨ c = '\n' := by
  refine ⟨raw.rtakeWhile (fun c => c == .char '\r' || c == .char '\n'), ?_, ?_⟩
  · exact List.rdropWhile_append_rtakeWhile.symm
  · intro c hmem
    simpa using List.mem_rtakeWhile_imp hmem

/-- The terminator of a line adds at most white space to its code. -/
theorem code_dropLineEnds (raw : Text) :
    ∃ blanks, code raw = code (Text.dropLineEnds raw) ++ blanks ∧
      ∀ c ∈ blanks, Text.isBlank c = true := by
  obtain ⟨ends, hraw, hends⟩ := append_dropLineEnds raw
  have hblank : ∀ c ∈ ends, Text.isBlank c = true := by
    intro c hmem
    rcases hends c hmem with rfl | rfl <;> decide
  have hcode : code raw = (Text.dropLineEnds raw ++ ends).takeWhile (fun c => c != .char ';') := by
    rw [← hraw, code_eq_takeWhile]
  rw [hcode, List.takeWhile_append, code_eq_takeWhile]
  split
  · rename_i hlength
    have hall : (Text.dropLineEnds raw).takeWhile (fun c => c != .char ';') = Text.dropLineEnds raw :=
      (List.takeWhile_prefix _).eq_of_length hlength
    refine ⟨ends.takeWhile (fun c => c != .char ';'), by rw [hall], ?_⟩
    intro c hmem
    exact hblank c ((List.takeWhile_prefix _).subset hmem)
  · exact ⟨[], by simp, by simp⟩

/-- A line with its terminator has the same label, and the same rest but for white space at its end. -/
theorem splitLabel_code (raw : Text) :
    ∃ blanks, (∀ c ∈ blanks, Text.isBlank c = true) ∧
      Record.splitLabel (code raw) = (label? (Text.dropLineEnds raw),
        (Record.splitLabel (code (Text.dropLineEnds raw))).2 ++ blanks) := by
  obtain ⟨blanks, hcode, hblank⟩ := code_dropLineEnds raw
  have hcolon : .char ':' ∉ blanks := by
    intro hmem
    have hfalse := hblank ':' hmem
    contradiction
  refine ⟨blanks, hblank, ?_⟩
  rw [hcode]
  exact splitLabel_append (.inl hcolon)

@[simp] theorem label?_dropLineEnds (raw : Text) : label? (Text.dropLineEnds raw) = label? raw := by
  obtain ⟨_, -, hsplit⟩ := splitLabel_code raw
  rw [label?.eq_def raw, hsplit]

@[simp] theorem body_dropLineEnds (raw : Text) : body (Text.dropLineEnds raw) = body raw := by
  obtain ⟨_, hblank, hsplit⟩ := splitLabel_code raw
  rw [body.eq_def raw, hsplit, Text.trim_append_of_blank hblank, body]

@[simp] theorem keyword_dropLineEnds (raw : Text) :
    keyword (Text.dropLineEnds raw) = keyword raw := by
  rw [keyword, operation, body_dropLineEnds, keyword, operation]

@[simp] theorem argument_dropLineEnds (raw : Text) :
    argument (Text.dropLineEnds raw) = argument raw := by
  rw [argument, body_dropLineEnds, argument]

@[simp] theorem kind_dropLineEnds (raw : Text) : kind (Text.dropLineEnds raw) = kind raw := by
  simp only [kind, body_dropLineEnds, label?_dropLineEnds, keyword_dropLineEnds]

@[simp] theorem takesWord_dropLineEnds (raw : Text) :
    takesWord (Text.dropLineEnds raw) = takesWord raw := by
  simp only [takesWord, kind_dropLineEnds]

end Line

end TwoPass
