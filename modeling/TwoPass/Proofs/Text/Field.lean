import TwoPass.Proofs.Operand.Grammar
import TwoPass.Proofs.Source.Wording

/-!
# Fields and the text between them

The fields of a text are its pieces between commas, without the white space around them.  White space
at either end of the text belongs to the first and the last piece, so it has no effect on the fields;
and pieces without commas can be joined and are found again.
-/

namespace TwoPass.Text

theorem comma_not_mem_of_blank {blanks : Text} (hblank : ∀ c ∈ blanks, isBlank c = true) :
    .char ',' ∉ blanks := by
  intro hmem
  have hcomma := hblank ',' hmem
  contradiction

theorem fields_of_not_mem {text : Text} (hcomma : .char ',' ∉ text) : fields text = [trim text] := by
  rw [fields, List.splitOn_eq_singleton hcomma, List.map_singleton]

/-- A single field is the whole text. -/
theorem trim_of_fields_eq_singleton {text token : Text} (hfields : fields text = [token]) :
    trim text = token := by
  obtain ⟨piece, hpiece, htoken⟩ := List.map_eq_singleton_iff.mp hfields
  have htext : [CodePoint.char ','].intercalate (text.splitOn (.char ',')) = text :=
    List.intercalate_splitOn (CodePoint.char ',')
  rw [hpiece, List.intercalate_singleton] at htext
  rw [← htext, htoken]

theorem fields_append_comma (first second : Text) :
    fields (first ++ .char ',' :: second) = fields first ++ fields second := by
  rw [fields, List.splitOn_append_cons_self, List.map_append, fields, fields]

theorem fields_blank_append {blanks : Text} (hblank : ∀ c ∈ blanks, isBlank c = true)
    (text : Text) : fields (blanks ++ text) = fields text := by
  have hnot := comma_not_mem_of_blank hblank
  by_cases hcomma : .char ',' ∈ text
  · obtain ⟨first, second, rfl, hfirst⟩ := List.eq_append_cons_of_mem hcomma
    have hboth : .char ',' ∉ blanks ++ first := by simp [hnot, hfirst]
    rw [← List.append_assoc, fields_append_comma, fields_append_comma, fields_of_not_mem hboth,
      fields_of_not_mem hfirst, trim_append_of_blank_left hblank]
  · have hboth : .char ',' ∉ blanks ++ text := by simp [hnot, hcomma]
    rw [fields_of_not_mem hboth, fields_of_not_mem hcomma, trim_append_of_blank_left hblank]

theorem fields_append_blank {blanks : Text} (hblank : ∀ c ∈ blanks, isBlank c = true)
    (text : Text) : fields (text ++ blanks) = fields text := by
  have hnot := comma_not_mem_of_blank hblank
  by_cases hcomma : .char ',' ∈ text
  · -- Here the text is split at its last comma.
    obtain ⟨last, front, hreverse, hlast⟩ :=
      List.eq_append_cons_of_mem (List.mem_reverse.mpr hcomma)
    obtain rfl : text = front.reverse ++ .char ',' :: last.reverse := by
      rw [← List.reverse_reverse text, hreverse]
      simp
    have hnotLast : .char ',' ∉ last.reverse := by simpa using hlast
    have hboth : .char ',' ∉ last.reverse ++ blanks := by simp [hnot, hlast]
    rw [List.append_assoc, List.cons_append, fields_append_comma, fields_append_comma,
      fields_of_not_mem hboth, fields_of_not_mem hnotLast, trim_append_of_blank hblank]
  · have hboth : .char ',' ∉ text ++ blanks := by simp [hnot, hcomma]
    rw [fields_of_not_mem hboth, fields_of_not_mem hcomma, trim_append_of_blank hblank]

@[simp] theorem fields_trim (text : Text) : fields (trim text) = fields text := by
  obtain ⟨lead, trail, htext, hlead, htrail⟩ := exists_append_trim text
  have hfields := congrArg fields htext
  rw [fields_blank_append hlead, fields_append_blank htrail] at hfields
  exact hfields.symm

/-- A piece is made of characters of the text, and none of them is a comma. -/
theorem of_mem_piece {text piece : Text} (hmem : piece ∈ text.splitOn (.char ',')) :
    ∀ c ∈ piece, c ∈ text ∧ c ≠ ',' := by
  induction text generalizing piece with
  | nil =>
      rw [List.splitOn_nil, List.mem_singleton] at hmem
      simp [hmem]
  | cons head rest ih =>
      have hrest : ∀ {part : Text}, part ∈ rest.splitOn (.char ',') →
          ∀ c ∈ part, c ∈ head :: rest ∧ c ≠ ',' := by
        intro part hpart c hc
        exact ⟨List.mem_cons_of_mem head (ih hpart c hc).1, (ih hpart c hc).2⟩
      rw [List.splitOn_cons_eq_if_modifyHead] at hmem
      split at hmem
      · rcases List.mem_cons.mp hmem with rfl | hlater
        · simp
        · exact hrest hlater
      · rename_i hne
        cases hpieces : rest.splitOn (.char ',') with
        | nil => exact absurd hpieces (List.splitOn_ne_nil (.char ',') rest)
        | cons first more =>
            rw [hpieces, List.modifyHead_cons] at hmem
            rcases List.mem_cons.mp hmem with rfl | hlater
            · intro c hc
              rcases List.mem_cons.mp hc with rfl | hfirst
              · exact ⟨List.mem_cons_self, by simpa using hne⟩
              · exact hrest (hpieces ▸ List.mem_cons_self) c hfirst
            · exact hrest (hpieces ▸ List.mem_cons_of_mem first hlater)

theorem of_mem_join {pieces : List Text} {c : CodePoint} (hmem : c ∈ [.char ','].intercalate pieces) :
    c = ',' ∨ ∃ piece ∈ pieces, c ∈ piece := by
  induction pieces with
  | nil => simp at hmem
  | cons first rest ih =>
      cases rest with
      | nil => exact Or.inr ⟨first, List.mem_cons_self, by simpa using hmem⟩
      | cons second more =>
          rw [List.intercalate_cons_cons, List.append_assoc, List.singleton_append] at hmem
          rcases List.mem_append.mp hmem with hfirst | hlater
          · exact Or.inr ⟨first, List.mem_cons_self, hfirst⟩
          · rcases List.mem_cons.mp hlater with hcomma | hrest
            · exact Or.inl hcomma
            · rcases ih hrest with hcomma | ⟨piece, hpiece, hc⟩
              · exact Or.inl hcomma
              · exact Or.inr ⟨piece, List.mem_cons_of_mem first hpiece, hc⟩

/-- Pieces without commas are the pieces of the text that they are joined to. -/
theorem fields_join {pieces : List Text} (hcomma : ∀ piece ∈ pieces, .char ',' ∉ piece)
    (hne : pieces ≠ []) : fields ([.char ','].intercalate pieces) = pieces.map trim := by
  rw [fields, List.splitOn_intercalate (.char ',') hcomma hne]

end TwoPass.Text
