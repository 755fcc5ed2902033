import Mathlib.Data.List.DropRight
import TwoPass.Text.Basic

/-!
# Cutting and joining lines

Lines that were cut from a text hold no character that ends a line.  Lines of this kind can be joined
with line feeds and cut again, and none is lost, changed or split in two.  A text may have its line ends
unified before it is cut, and a line may keep its terminator: neither makes a difference to the lines.
-/

namespace TwoPass.Text

/-- No character of the text ends a line. -/
def IsLine (text : Text) : Prop :=
  ∀ c ∈ text, isLineEnd c = false

theorem isLine_nil : IsLine [] := by
  intro c hmem
  simp at hmem

theorem IsLine.cons {c : CodePoint} {text : Text} (hc : isLineEnd c = false) (htext : IsLine text) :
    IsLine (c :: text) := by
  intro d hmem
  rcases List.mem_cons.mp hmem with rfl | hrest
  · exact hc
  · exact htext d hrest

theorem IsLine.append {first second : Text} (hfirst : IsLine first) (hsecond : IsLine second) :
    IsLine (first ++ second) := by
  intro c hmem
  rcases List.mem_append.mp hmem with hleft | hright
  · exact hfirst c hleft
  · exact hsecond c hright

/-- A character that ends no line belongs to the first line. -/
theorem lines_cons_of_cons {c : CodePoint} (hc : isLineEnd c = false) {rest line : Text}
    {more : List Text} (hrest : lines rest = line :: more) :
    lines (c :: rest) = (c :: line) :: more := by
  rw [lines]
  · simp [hc, hrest]
  · intro _ hreturn _
    rw [hreturn] at hc
    contradiction

theorem lines_cons_of_nil {c : CodePoint} (hc : isLineEnd c = false) {rest : Text}
    (hrest : lines rest = []) : lines (c :: rest) = [[c]] := by
  rw [lines]
  · simp [hc, hrest]
  · intro _ hreturn _
    rw [hreturn] at hc
    contradiction

/-- A line feed ends the line before it. -/
theorem lines_append_newline {line : Text} (hline : IsLine line) (rest : Text) :
    lines (line ++ .char '\n' :: rest) = line :: lines rest := by
  induction line with
  | nil =>
      rw [List.nil_append, lines]
      · have hend : isLineEnd '\n' = true := by decide
        simp [hend]
      · intro _ hreturn _
        contradiction
  | cons c more ih =>
      have hmore : IsLine more := fun d hmem => hline d (List.mem_cons_of_mem c hmem)
      exact lines_cons_of_cons (hline c List.mem_cons_self) (ih hmore)

/-- Joining lines and cutting the outcome gives the lines back. -/
theorem lines_unlines {texts : List Text} (htexts : ∀ text ∈ texts, IsLine text) :
    lines (unlines texts) = texts := by
  induction texts with
  | nil => rfl
  | cons text rest ih =>
      have hrest := ih (fun other hmem => htexts other (List.mem_cons_of_mem text hmem))
      have hjoin : unlines (text :: rest) = text ++ .char '\n' :: unlines rest := by
        simp [unlines]
      rw [hjoin, lines_append_newline (htexts text List.mem_cons_self), hrest]

/-- The lines of a text are made of its characters, those that end a line left out. -/
theorem mem_of_mem_lines {text line : Text} (hline : line ∈ lines text) {c : CodePoint}
    (hmem : c ∈ line) : c ∈ text ∧ isLineEnd c = false := by
  have hbehind {front rest : Text} (hrest : c ∈ rest ∧ isLineEnd c = false) :
      c ∈ front ++ rest ∧ isLineEnd c = false :=
    ⟨List.mem_append_right front hrest.1, hrest.2⟩
  induction text using lines.induct generalizing line with
  | case1 => simp [lines] at hline
  | case2 rest ih =>
      rw [lines] at hline
      rcases List.mem_cons.mp hline with rfl | hrest
      · simp at hmem
      · exact @hbehind [.char '\r', .char '\n'] rest (ih hrest hmem)
  | case3 first rest hpair hend ih =>
      rw [lines] at hline
      · simp only [hend, ↓reduceIte] at hline
        rcases List.mem_cons.mp hline with rfl | hrest
        · simp at hmem
        · exact @hbehind [first] rest (ih hrest hmem)
      · exact hpair
  | case4 first rest hpair hend hnone ih =>
      have hfirst : isLineEnd first = false := by simpa using hend
      rw [lines_cons_of_nil hfirst hnone] at hline
      rw [List.mem_singleton.mp hline, List.mem_singleton] at hmem
      rw [hmem]
      exact ⟨List.mem_cons_self, hfirst⟩
  | case5 first rest hpair hend start more hsome ih =>
      have hfirst : isLineEnd first = false := by simpa using hend
      have hrest {other : Text} (hother : other ∈ start :: more) (hin : c ∈ other) :
          c ∈ first :: rest ∧ isLineEnd c = false :=
        @hbehind [first] rest (ih (hsome ▸ hother) hin)
      rw [lines_cons_of_cons hfirst hsome] at hline
      rcases List.mem_cons.mp hline with rfl | hmore
      · rcases List.mem_cons.mp hmem with rfl | hstart
        · exact ⟨List.mem_cons_self, hfirst⟩
        · exact hrest List.mem_cons_self hstart
      · exact hrest (List.mem_cons_of_mem start hmore) hmem

/-- Cutting leaves no character that ends a line. -/
theorem isLine_of_mem_lines {text line : Text} (hline : line ∈ lines text) : IsLine line :=
  fun _ hmem => (mem_of_mem_lines hline hmem).2

/-- A character that ends a line ends it by itself, unless it is the first of a pair. -/
theorem lines_cons_of_isLineEnd {c : CodePoint} (hend : isLineEnd c = true) {rest : Text}
    (hpair : ∀ more, c = .char '\r' → rest = .char '\n' :: more → False) :
    lines (c :: rest) = [] :: lines rest := by
  rw [lines]
  · simp [hend]
  · exact hpair

/-- What a character other than a carriage return adds depends on the lines behind it only. -/
theorem lines_cons_congr {c : CodePoint} (hreturn : c ≠ '\r') {rest other : Text}
    (hrest : lines rest = lines other) : lines (c :: rest) = lines (c :: other) := by
  cases hend : isLineEnd c with
  | true =>
      rw [lines_cons_of_isLineEnd hend fun _ heq _ => hreturn heq,
        lines_cons_of_isLineEnd hend fun _ heq _ => hreturn heq, hrest]
  | false =>
      cases hother : lines other with
      | nil => rw [lines_cons_of_nil hend hother, lines_cons_of_nil hend (hrest.trans hother)]
      | cons line more =>
          rw [lines_cons_of_cons hend hother, lines_cons_of_cons hend (hrest.trans hother)]

/-- Unifying the line ends of a text first does not change its lines. -/
theorem lines_unifyLineEnds (text : Text) : lines (unifyLineEnds text) = lines text := by
  have hfeed : ∀ rest, lines ('\n' :: rest) = [] :: lines rest := lines_append_newline isLine_nil
  induction text using unifyLineEnds.induct with
  | case1 => rfl
  | case2 rest ih => rw [unifyLineEnds, hfeed, ih, lines]
  | case3 rest hpair ih =>
      rw [unifyLineEnds, hfeed, ih]
      · exact (lines_cons_of_isLineEnd (by decide) fun more _ heq => hpair more heq).symm
      · exact hpair
  | case4 c rest hpair hreturn ih =>
      rw [unifyLineEnds]
      · exact lines_cons_congr hreturn ih
      · exact hpair
      · exact hreturn

/-- A line has no terminator to lose. -/
theorem dropLineEnds_of_isLine {line : Text} (hline : IsLine line) : dropLineEnds line = line := by
  have hdrop : dropLineEnds line = line.rdropWhile (fun c => c == .char '\r' || c == .char '\n') := rfl
  rw [hdrop, List.rdropWhile_eq_self_iff]
  intro hne hlast
  have hend := hline _ (List.getLast_mem hne)
  simp only [Bool.or_eq_true, beq_iff_eq] at hlast
  rcases hlast with hreturn | hfeed
  · rw [hreturn] at hend
    contradiction
  · rw [hfeed] at hend
    contradiction

theorem map_dropLineEnds_of_isLine {texts : List Text} (htexts : ∀ text ∈ texts, IsLine text) :
    texts.map dropLineEnds = texts := by
  calc texts.map dropLineEnds = texts.map id :=
        List.map_congr_left fun text hmem => dropLineEnds_of_isLine (htexts text hmem)
    _ = texts := List.map_id texts

theorem map_dropLineEnds_lines (text : Text) : (lines text).map dropLineEnds = lines text :=
  map_dropLineEnds_of_isLine fun _ hmem => isLine_of_mem_lines hmem

end TwoPass.Text
