import Mathlib.Data.List.TakeWhile
import TwoPass.Proofs.Text.Utf8

/-!
# What stripping leaves

Stripping takes control sequences out of a text and leaves everything else in its place.  A sequence
never reaches over the end of a line, so that the lines of a text are stripped one by one.
-/

namespace TwoPass.Text

theorem length_afterControl? {text after : Text} (hcontrol : afterControl? text = some after) :
    after.length < text.length := by
  unfold afterControl? at hcontrol
  split at hcontrol
  · rename_i rest
    split at hcontrol
    · rename_i c behind hdrop
      split at hcontrol
      · obtain rfl := Option.some.inj hcontrol
        have hsuffix := (List.dropWhile_suffix (l := rest) isControlParameter).length_le
        rw [hdrop] at hsuffix
        simp only [List.length_cons] at hsuffix ⊢
        omega
      · contradiction
    · contradiction
  · contradiction

/-- More steps than characters make no difference. -/
theorem plainWithin_of_length_le {fuel : Nat} {text : Text} (hfuel : text.length ≤ fuel) :
    plainWithin fuel text = plain text := by
  -- Both sides go through the text alike; what is left of it is shorter at every step.
  have hsame : ∀ steps more : Nat, ∀ rest : Text, rest.length ≤ steps → rest.length ≤ more →
      plainWithin steps rest = plainWithin more rest := by
    intro steps
    induction steps with
    | zero =>
        intro more rest hsteps _
        obtain rfl : rest = [] := List.length_eq_zero_iff.mp (by omega)
        cases more <;> rfl
    | succ steps ih =>
        intro more rest hsteps hmore
        cases rest with
        | nil => cases more <;> rfl
        | cons c rest =>
            cases more with
            | zero => simp at hmore
            | succ more =>
                simp only [List.length_cons, Nat.add_le_add_iff_right] at hsteps hmore
                simp only [plainWithin, ih more rest hsteps hmore]
                cases hcontrol : afterControl? rest with
                | none => rfl
                | some after =>
                    have hshorter := length_afterControl? hcontrol
                    simp only [ih more after (by omega) (by omega)]
  exact hsame fuel text.length text hfuel (Nat.le_refl _)

@[simp] theorem plain_nil : plain [] = [] := rfl

theorem plain_cons_of_ne {c : CodePoint} (hne : c ≠ '\x1b') (rest : Text) :
    plain (c :: rest) = c :: plain rest := by
  rw [plain, List.length_cons, plainWithin, if_neg hne]
  rfl

/-- An escape character stays unless it starts a control sequence, which goes as a whole. -/
theorem plain_cons_escape (rest : Text) :
    plain ('\x1b' :: rest) =
      match afterControl? rest with
      | some after => plain after
      | none => '\x1b' :: plain rest := by
  rw [plain, List.length_cons, plainWithin, if_pos rfl]
  cases hcontrol : afterControl? rest with
  | none => rfl
  | some after =>
      have hshorter := length_afterControl? hcontrol
      exact plainWithin_of_length_le (by omega)

theorem plain_append_of_not_mem {front : Text} (hfront : .char '\x1b' ∉ front) (rest : Text) :
    plain (front ++ rest) = front ++ plain rest := by
  induction front with
  | nil => rfl
  | cons c front ih =>
      rw [List.mem_cons, not_or] at hfront
      rw [List.cons_append, plain_cons_of_ne (Ne.symm hfront.1), ih hfront.2, List.cons_append]

/-- A control sequence ends on the line it starts on. -/
theorem afterControl?_append_newline (text rest : Text) :
    afterControl? (text ++ .char '\n' :: rest) =
      (afterControl? text).map fun after => after ++ .char '\n' :: rest := by
  cases text with
  | nil => rfl
  | cons c more =>
      by_cases hbracket : c = '['
      · have hdrop : (more ++ .char '\n' :: rest).dropWhile isControlParameter =
            more.dropWhile isControlParameter ++ .char '\n' :: rest := by
          rw [List.dropWhile_append]
          cases hmore : more.dropWhile isControlParameter with
          | nil => rfl
          | cons d behind => rfl
        subst hbracket
        simp only [List.cons_append, afterControl?, hdrop]
        cases more.dropWhile isControlParameter with
        | nil => rfl
        | cons d behind => cases hletter : isLetter d <;> simp [hletter]
      · simp [afterControl?, hbracket]

/-- The lines of a text are stripped one by one. -/
theorem plain_append_newline (text rest : Text) :
    plain (text ++ .char '\n' :: rest) = plain text ++ .char '\n' :: plain rest := by
  induction hlength : text.length using Nat.strongRecOn generalizing text with
  | ind length ih =>
      cases text with
      | nil => exact plain_cons_of_ne (by decide) rest
      | cons c more =>
          rw [List.length_cons] at hlength
          by_cases hescape : c = '\x1b'
          · subst hescape
            rw [List.cons_append, plain_cons_escape, plain_cons_escape,
              afterControl?_append_newline]
            cases hcontrol : afterControl? more with
            | none =>
                simp only [Option.map_none, List.cons_append]
                rw [ih more.length (by omega) more rfl]
            | some after =>
                have hshorter := length_afterControl? hcontrol
                simp only [Option.map_some]
                exact ih after.length (by omega) after rfl
          · rw [List.cons_append, plain_cons_of_ne hescape, plain_cons_of_ne hescape,
              ih more.length (by omega) more rfl, List.cons_append]

/-- So are texts that are joined by line ends. -/
theorem plain_intercalate_newline (texts : List Text) :
    plain ([.char '\n'].intercalate texts) = [.char '\n'].intercalate (texts.map plain) := by
  induction texts with
  | nil => rfl
  | cons text more ih =>
      cases more with
      | nil => simp
      | cons next others =>
          rw [List.intercalate_cons_cons, List.append_assoc, List.singleton_append,
            plain_append_newline, ih]
          simp only [List.map_cons, List.intercalate_cons_cons, List.append_assoc,
            List.singleton_append]

theorem not_surrogate_le {c : Char} (hc : c.toNat < 0xD800) (offset : Fin 2048) :
    ¬ CodePoint.surrogate offset ≤ .char c := by
  change ¬ 0xD800 + offset.val ≤ c.toNat
  omega

theorem isControlParameter_surrogate (offset : Fin 2048) :
    isControlParameter (.surrogate offset) = false := by
  have hdigit := not_surrogate_le (c := '9') (by decide) offset
  simp [isControlParameter, isDigit, hdigit]

theorem isLetter_surrogate (offset : Fin 2048) : isLetter (.surrogate offset) = false := by
  have hupper := not_surrogate_le (c := 'Z') (by decide) offset
  have hlower := not_surrogate_le (c := 'z') (by decide) offset
  simp [isLetter, hupper, hlower]

theorem encodable_of_all {p : CodePoint → Bool} (hp : ∀ offset, p (.surrogate offset) = false)
    {text : Text} (htext : ∀ c ∈ text, p c = true) : Utf8.Encodable text := by
  intro offset hmem
  have htrue := htext _ hmem
  rw [hp offset] at htrue
  cases htrue

/-- There is no surrogate in a control sequence. -/
theorem encodable_afterControl? {text after : Text} (hcontrol : afterControl? text = some after) :
    Utf8.Encodable after ↔ Utf8.Encodable text := by
  unfold afterControl? at hcontrol
  split at hcontrol
  · rename_i rest
    split at hcontrol
    · rename_i c behind hdrop
      split at hcontrol
      · rename_i hletter
        obtain rfl := Option.some.inj hcontrol
        have hparameters : Utf8.Encodable (rest.takeWhile isControlParameter) :=
          encodable_of_all isControlParameter_surrogate fun _ hmem => List.mem_takeWhile_imp hmem
        have hlast : Utf8.Encodable [c] :=
          encodable_of_all isLetter_surrogate (List.forall_mem_singleton.mpr hletter)
        have hsplit : rest = rest.takeWhile isControlParameter ++ ([c] ++ behind) := by
          rw [List.singleton_append, ← hdrop, List.takeWhile_append_dropWhile]
        rw [Utf8.encodable_cons_char, hsplit, Utf8.encodable_append, Utf8.encodable_append]
        simp only [hparameters, hlast, true_and]
      · contradiction
    · contradiction
  · contradiction

/-- Stripping takes no surrogate away. -/
@[simp] theorem encodable_plain_iff (text : Text) :
    Utf8.Encodable (plain text) ↔ Utf8.Encodable text := by
  induction hlength : text.length using Nat.strongRecOn generalizing text with
  | ind length ih =>
      cases text with
      | nil => rfl
      | cons c more =>
          rw [List.length_cons] at hlength
          have hmore := ih more.length (by omega) more rfl
          have hcons : Utf8.Encodable (c :: plain more) ↔ Utf8.Encodable (c :: more) := by
            rw [← List.singleton_append, Utf8.encodable_append, hmore, ← Utf8.encodable_append,
              List.singleton_append]
          by_cases hescape : c = '\x1b'
          · subst hescape
            rw [plain_cons_escape]
            cases hcontrol : afterControl? more with
            | none => exact hcons
            | some after =>
                have hshorter := length_afterControl? hcontrol
                have hafter := ih after.length (by omega) after rfl
                simp only
                rw [hafter, encodable_afterControl? hcontrol, Utf8.encodable_cons_char]
          · rw [plain_cons_of_ne hescape]
            exact hcons

end TwoPass.Text
