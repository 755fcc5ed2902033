import Mathlib.Data.List.Basic
import TwoPass.Machine.Instruction

/-!
# Capitals

Operations are put into capitals when a line is read and once more when they are looked up.  Where
the outcome is ASCII the second time changes nothing: apart from ASCII letters only ten letters have
ASCII capitals, and none of the ten is itself the capital of a letter.  So an operation belongs to the
instruction whose mnemonic it spells in capitals.
-/

namespace TwoPass

/-- The capital of an ASCII letter; every other code point stands for itself. -/
def CodePoint.toUpper : CodePoint → CodePoint
  | .char c => .char c.toUpper
  | .surrogate offset => .surrogate offset

namespace Text

/-- The letters outside ASCII whose capitals are ASCII letters. -/
def foldedLetters : List Nat :=
  [0xDF, 0x131, 0x17F, 0xFB00, 0xFB01, 0xFB02, 0xFB03, 0xFB04, 0xFB05, 0xFB06]

theorem caseExpansions_outside_ascii :
    ∀ entry ∈ caseExpansions, entry.1 ∉ foldedLetters →
      ∃ code ∈ entry.2, 128 ≤ (Char.ofNat code).toNat := by
  decide +kernel

theorem caseExpansions_avoid_foldedLetters :
    ∀ entry ∈ caseExpansions, ∀ code ∈ entry.2, (Char.ofNat code).toNat ∉ foldedLetters := by
  decide +kernel

theorem caseExpansions_ascii_capital :
    ∀ entry ∈ caseExpansions, ∀ code ∈ entry.2,
      code < 128 → (Char.ofNat code).toUpper = Char.ofNat code := by
  decide +kernel

theorem caseExpansions_ascii :
    ∀ entry ∈ caseExpansions, ∀ code ∈ entry.2, (Char.ofNat code).toNat = code := by
  decide +kernel

/-- The capitals of a run lie outside ASCII, or the run is one folded letter with its capital. -/
theorem caseRuns_outside_ascii :
    ∀ run ∈ caseRuns, 128 ≤ run.first + run.shift ∨
      (run.first = run.last ∧ run.first ∈ foldedLetters ∧
        65 ≤ run.first + run.shift ∧ run.first + run.shift ≤ 90) := by
  decide +kernel

theorem caseRuns_avoid_foldedLetters :
    ∀ run ∈ caseRuns, ∀ letter ∈ foldedLetters,
      (letter : Int) < run.first + run.shift ∨ run.last + run.shift < (letter : Int) := by
  decide +kernel

/-- No capital of a run falls into the gap of the code points. -/
theorem caseRuns_valid :
    ∀ run ∈ caseRuns, 0 ≤ run.first + run.shift ∧ (run.last + run.shift < 0xD800 ∨
      (0xE000 ≤ run.first + run.shift ∧ run.last + run.shift < 0x110000)) := by
  decide +kernel

theorem caseExpansions_ne_nil : ∀ entry ∈ caseExpansions, entry.2 ≠ [] := by
  decide +kernel

theorem caseExpansions_isBlank :
    ∀ entry ∈ caseExpansions, ∀ code ∈ entry.2, isBlank (Char.ofNat code) = false := by
  decide +kernel

/-- No white space lies among the capitals of a run. -/
theorem caseRuns_isBlank :
    ∀ run ∈ caseRuns, ∀ offset < run.last + 1 - run.first,
      isBlank (Char.ofNat ((run.first + offset : Nat) + run.shift).toNat) = false := by
  decide +kernel

theorem toUpper_toUpper_of_ascii {c : Char} (hascii : c.toNat < 128) :
    c.toUpper.toUpper = c.toUpper ∧ c.toUpper.toNat < 128 := by
  have hall : ∀ n < 128, (Char.ofNat n).toUpper.toUpper = (Char.ofNat n).toUpper ∧
      (Char.ofNat n).toUpper.toNat < 128 := by decide
  simpa using hall c.toNat hascii

theorem toUpper_of_capital {c : Char} (hfirst : 65 ≤ c.toNat) (hlast : c.toNat ≤ 90) :
    c.toUpper = c := by
  have hall : ∀ n < 91, 65 ≤ n → (Char.ofNat n).toUpper = Char.ofNat n := by decide
  simpa using hall c.toNat (by omega) hfirst

theorem toNat_ofNat_of_valid {n : Nat} (hvalid : n.isValidChar) : (Char.ofNat n).toNat = n := by
  rw [Char.ofNat, dif_pos hvalid]
  rfl

theorem capitals_of_ascii {c : Char} (hascii : c.toNat < 128) : capitals c = [c.toUpper] := by
  simp [capitals, hascii]

theorem CaseRun.bounds_of_covers {run : CaseRun} {code : Nat} (hcovers : run.covers code = true) :
    run.first ≤ code ∧ code ≤ run.last := by
  simp only [CaseRun.covers, Bool.and_eq_true, decide_eq_true_eq] at hcovers
  exact hcovers.1

theorem CaseRun.toNat_capital {run : CaseRun} (hrun : run ∈ caseRuns) {code : Nat}
    (hcovers : run.covers code = true) :
    ((Char.ofNat (code + run.shift).toNat).toNat : Int) = code + run.shift := by
  obtain ⟨hfirst, hlast⟩ := run.bounds_of_covers hcovers
  have hvalid := caseRuns_valid run hrun
  rw [toNat_ofNat_of_valid]
  · omega
  · unfold Nat.isValidChar
    omega

/-- Outside ASCII a character is expanded, belongs to a run, or is its own capital. -/
theorem capitals_cases {c : Char} (hascii : ¬ c.toNat < 128) :
    (∃ codes, (c.toNat, codes) ∈ caseExpansions ∧ capitals c = codes.map Char.ofNat) ∨
    (∃ run ∈ caseRuns, run.covers c.toNat = true ∧
      capitals c = [Char.ofNat (c.toNat + run.shift).toNat]) ∨
    capitals c = [c] := by
  simp only [capitals, hascii, ↓reduceIte]
  cases hlookup : caseExpansions.lookup c.toNat with
  | some codes =>
      left
      obtain ⟨before, after, hsplit, -⟩ := List.lookup_eq_some_iff.mp hlookup
      exact ⟨codes, by rw [hsplit]; simp, rfl⟩
  | none =>
      right
      cases hfind : caseRuns.find? (fun run => run.covers c.toNat) with
      | some run =>
          left
          exact ⟨run, List.mem_of_find?_eq_some hfind, by simpa using List.find?_some hfind, rfl⟩
      | none => exact Or.inr rfl

/-- Only folded letters leave the characters outside ASCII. -/
theorem mem_foldedLetters_of_capitals_ascii {c : Char} (hascii : ¬ c.toNat < 128)
    (hcapitals : ∀ d ∈ capitals c, d.toNat < 128) : c.toNat ∈ foldedLetters := by
  rcases capitals_cases hascii with ⟨codes, hmem, hupper⟩ | ⟨run, hrun, hcovers, hupper⟩ | hupper
  · by_contra hnot
    obtain ⟨code, hcode, hlarge⟩ := caseExpansions_outside_ascii _ hmem hnot
    have hsmall := hcapitals (Char.ofNat code) (by rw [hupper]; exact List.mem_map_of_mem hcode)
    omega
  · have hsmall := hcapitals _ (by rw [hupper]; exact List.mem_cons_self)
    have hvalue := run.toNat_capital hrun hcovers
    obtain ⟨hfirst, hlast⟩ := run.bounds_of_covers hcovers
    rcases caseRuns_outside_ascii run hrun with hlarge | ⟨hsingle, hfolded, -⟩
    · omega
    · have hcode : c.toNat = run.first := by omega
      rw [hcode]
      exact hfolded
  · exact absurd (hcapitals c (by rw [hupper]; exact List.mem_cons_self)) hascii

/-- A capital is no folded letter unless it stands for itself, and ASCII capitals are final. -/
theorem capital_cases {c d : Char} (hmem : d ∈ capitals c) :
    capitals d = [d] ∨ (¬ d.toNat < 128 ∧ d.toNat ∉ foldedLetters) := by
  by_cases hascii : c.toNat < 128
  · rw [capitals_of_ascii hascii, List.mem_singleton] at hmem
    obtain ⟨hstable, hsmall⟩ := toUpper_toUpper_of_ascii hascii
    left
    rw [hmem, capitals_of_ascii hsmall, hstable]
  · rcases capitals_cases hascii with ⟨codes, hentry, hupper⟩ | ⟨run, hrun, hcovers, hupper⟩ |
      hupper
    · rw [hupper, List.mem_map] at hmem
      obtain ⟨code, hcode, rfl⟩ := hmem
      have hvalue := caseExpansions_ascii _ hentry code hcode
      by_cases hsmall : code < 128
      · left
        rw [capitals_of_ascii (by rw [hvalue]; exact hsmall),
          caseExpansions_ascii_capital _ hentry code hcode hsmall]
      · right
        exact ⟨by rw [hvalue]; exact hsmall,
          caseExpansions_avoid_foldedLetters _ hentry code hcode⟩
    · rw [hupper, List.mem_singleton] at hmem
      subst hmem
      have hvalue := run.toNat_capital hrun hcovers
      obtain ⟨hfirst, hlast⟩ := run.bounds_of_covers hcovers
      by_cases hsmall : (Char.ofNat (c.toNat + run.shift).toNat).toNat < 128
      · left
        rcases caseRuns_outside_ascii run hrun with hlarge | ⟨hsingle, -, hlow, hhigh⟩
        · omega
        · rw [capitals_of_ascii hsmall, toUpper_of_capital (by omega) (by omega)]
      · right
        refine ⟨hsmall, ?_⟩
        intro hfolded
        have havoid := caseRuns_avoid_foldedLetters run hrun _ hfolded
        omega
    · left
      rw [hupper, List.mem_singleton] at hmem
      rw [hmem, hupper]

theorem capitals_ne_nil (c : Char) : capitals c ≠ [] := by
  by_cases hascii : c.toNat < 128
  · simp [capitals_of_ascii hascii]
  · rcases capitals_cases hascii with ⟨codes, hentry, hupper⟩ | ⟨run, -, -, hupper⟩ | hupper
    · rw [hupper, ne_eq, List.map_eq_nil_iff]
      exact caseExpansions_ne_nil _ hentry
    · simp [hupper]
    · simp [hupper]

/-- Capitals of visible characters are visible. -/
theorem isBlank_of_mem_capitals {c d : Char} (hsolid : isBlank c = false) (hmem : d ∈ capitals c) :
    isBlank d = false := by
  by_cases hascii : c.toNat < 128
  · have hall : ∀ n < 128, isBlank (Char.ofNat n) = false →
        isBlank (Char.ofNat n).toUpper = false := by decide
    rw [capitals_of_ascii hascii, List.mem_singleton] at hmem
    rw [hmem]
    simpa using hall c.toNat hascii (by simpa using hsolid)
  · rcases capitals_cases hascii with ⟨codes, hentry, hupper⟩ | ⟨run, hrun, hcovers, hupper⟩ |
      hupper
    · rw [hupper, List.mem_map] at hmem
      obtain ⟨code, hcode, rfl⟩ := hmem
      exact caseExpansions_isBlank _ hentry code hcode
    · rw [hupper, List.mem_singleton] at hmem
      obtain ⟨hfirst, hlast⟩ := run.bounds_of_covers hcovers
      have hcapital := caseRuns_isBlank run hrun (c.toNat - run.first) (by omega)
      rw [hmem]
      rwa [Nat.add_sub_cancel' hfirst] at hcapital
    · rw [hupper, List.mem_singleton] at hmem
      rwa [hmem]

theorem upperChar_surrogate (offset : Fin 2048) : upperChar (.surrogate offset) = [.surrogate offset] :=
  rfl

theorem upperChar_char (c : Char) : upperChar (.char c) = (capitals c).map .char :=
  rfl

theorem upperChar_of_ascii {c : CodePoint} (hascii : c.toNat < 128) : upperChar c = [c.toUpper] := by
  cases c with
  | char letter => rw [upperChar_char, capitals_of_ascii hascii, List.map_singleton, CodePoint.toUpper]
  | surrogate offset => rfl

theorem mem_foldedLetters_of_upperChar_ascii {c : CodePoint} (hascii : ¬ c.toNat < 128)
    (hcapitals : ∀ d ∈ upperChar c, d.toNat < 128) : c.toNat ∈ foldedLetters := by
  cases c with
  | char letter =>
      apply mem_foldedLetters_of_capitals_ascii hascii
      intro capital hmem
      exact hcapitals (.char capital) (List.mem_map_of_mem hmem)
  | surrogate offset =>
      exact absurd (hcapitals (.surrogate offset) List.mem_cons_self) hascii

theorem upperChar_cases {c d : CodePoint} (hmem : d ∈ upperChar c) :
    upperChar d = [d] ∨ (¬ d.toNat < 128 ∧ d.toNat ∉ foldedLetters) := by
  cases c with
  | char letter =>
      obtain ⟨capital, hcapital, rfl⟩ := List.mem_map.mp hmem
      rcases capital_cases hcapital with hfinal | houtside
      · left
        rw [upperChar_char, hfinal, List.map_singleton]
      · exact Or.inr houtside
  | surrogate offset =>
      rw [upperChar_surrogate, List.mem_singleton] at hmem
      subst hmem
      exact Or.inl (upperChar_surrogate offset)

theorem upperChar_ne_nil (c : CodePoint) : upperChar c ≠ [] := by
  cases c with
  | char letter => simpa [upperChar_char] using capitals_ne_nil letter
  | surrogate offset => simp [upperChar_surrogate]

theorem isBlank_of_mem_upperChar {c d : CodePoint} (hsolid : isBlank c = false)
    (hmem : d ∈ upperChar c) : isBlank d = false := by
  cases c with
  | char letter =>
      obtain ⟨capital, hcapital, rfl⟩ := List.mem_map.mp hmem
      exact isBlank_of_mem_capitals hsolid hcapital
  | surrogate offset =>
      rw [upperChar_surrogate, List.mem_singleton] at hmem
      rwa [hmem]

theorem upper_upper_of_forall {text : Text} (hfinal : ∀ d ∈ upper text, upperChar d = [d]) :
    upper (upper text) = upper text := by
  calc upper (upper text) = (upper text).flatMap (fun d => [d]) :=
        List.flatMap_congr hfinal
    _ = upper text := List.flatMap_singleton' (upper text)

/-- A text whose capitals are ASCII is not changed by a second time. -/
theorem upper_upper_eq_iff {text target : Text} (hascii : ∀ c ∈ target, c.toNat < 128) :
    upper (upper text) = target ↔ upper text = target := by
  constructor
  · intro htarget
    have hfinal : ∀ d ∈ upper text, upperChar d = [d] := by
      intro d hd
      obtain ⟨c, -, hmem⟩ := List.mem_flatMap.mp hd
      rcases upperChar_cases hmem with hfinal | ⟨hlarge, hnot⟩
      · exact hfinal
      · refine absurd (mem_foldedLetters_of_upperChar_ascii hlarge ?_) hnot
        intro e he
        apply hascii
        rw [← htarget]
        exact List.mem_flatMap.mpr ⟨d, hd, he⟩
    rw [← upper_upper_of_forall hfinal, htarget]
  · rintro rfl
    apply upper_upper_of_forall
    intro d hd
    obtain ⟨c, -, hmem⟩ := List.mem_flatMap.mp hd
    rcases upperChar_cases hmem with hfinal | ⟨hlarge, -⟩
    · exact hfinal
    · exact absurd (hascii d hd) hlarge

theorem upper_ne_nil {text : Text} (hne : text ≠ []) : upper text ≠ [] := by
  cases text with
  | nil => exact absurd rfl hne
  | cons c rest =>
      rw [upper, List.flatMap_cons]
      exact List.append_ne_nil_of_left_ne_nil (upperChar_ne_nil c) _

theorem isBlank_of_mem_upper {text : Text} (hsolid : ∀ c ∈ text, isBlank c = false) :
    ∀ d ∈ upper text, isBlank d = false := by
  intro d hmem
  obtain ⟨c, hc, hd⟩ := List.mem_flatMap.mp hmem
  exact isBlank_of_mem_upperChar (hsolid c hc) hd

end Text

namespace Instruction

theorem mem_all (instruction : Instruction) : instruction ∈ all := by
  cases instruction <;> decide

theorem mnemonic_ascii (instruction : Instruction) :
    ∀ c ∈ instruction.mnemonic, c.toNat < 128 := by
  have hall : instruction.mnemonic.all (fun c => decide (c.toNat < 128)) = true := by
    cases instruction <;> decide
  intro c hmem
  exact of_decide_eq_true (List.all_eq_true.mp hall c hmem)

theorem mnemonic_injective {first second : Instruction}
    (heq : first.mnemonic = second.mnemonic) : first = second := by
  have hall : ∀ first ∈ all, ∀ second ∈ all,
      first.mnemonic = second.mnemonic → first = second := by decide +kernel
  exact hall first (mem_all first) second (mem_all second) heq

theorem mnemonic_of_ofMnemonic? {mnemonic : Text} {instruction : Instruction}
    (hfound : ofMnemonic? mnemonic = some instruction) :
    instruction.mnemonic = Text.upper mnemonic := by
  unfold ofMnemonic? at hfound
  simpa using List.find?_some hfound

/-- An operation in capitals belongs to the instruction whose mnemonic it is. -/
theorem ofMnemonic?_upper_eq_some_iff (operation : Text) (instruction : Instruction) :
    ofMnemonic? (Text.upper operation) = some instruction ↔
      Text.upper operation = instruction.mnemonic := by
  constructor
  · intro hfound
    exact (Text.upper_upper_eq_iff (mnemonic_ascii instruction)).mp
      (mnemonic_of_ofMnemonic? hfound).symm
  · intro hspelled
    have hstable := (Text.upper_upper_eq_iff (mnemonic_ascii instruction)).mpr hspelled
    cases hfound : ofMnemonic? (Text.upper operation) with
    | none =>
        have hnone := List.find?_eq_none.mp hfound instruction (mem_all instruction)
        simp [hstable] at hnone
    | some found =>
        have hsame := mnemonic_of_ofMnemonic? hfound
        rw [hstable] at hsame
        rw [mnemonic_injective hsame]

theorem ofMnemonic?_upper_eq_none_iff (operation : Text) :
    ofMnemonic? (Text.upper operation) = none ↔
      ∀ instruction : Instruction, Text.upper operation ≠ instruction.mnemonic := by
  rw [Option.eq_none_iff_forall_ne_some]
  simp only [ne_eq, ofMnemonic?_upper_eq_some_iff]

end Instruction

end TwoPass
