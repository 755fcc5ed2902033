import TwoPass.Proofs.Source.Line
import TwoPass.Proofs.Symbol.Definition

/-!
# Lines in their places

A line of a source stands behind the lines before it, and these alone decide its number, its location
counter, and what its label was bound to earlier.  The counter is the argument of the last origin line
plus the number of word lines since, or the number of all word lines if there is no origin line.
-/

namespace TwoPass

namespace Source

/-- The argument of the last origin line, or zero without one. -/
def base (before : List Text) : Int :=
  ((before.filter (fun raw => Line.kind raw == .origin)).getLast?.map Line.origin).getD 0

/-- The number of word lines after the last origin line, or of all without one. -/
def wordsSinceOrigin (before : List Text) : Nat :=
  (before.rtakeWhile (fun raw => Line.kind raw != .origin)).countP Line.takesWord

def counter (before : List Text) : Int :=
  base before + wordsSinceOrigin before

@[simp] theorem counter_nil : counter [] = 0 := rfl

theorem counter_append_origin {before : List Text} {raw : Text} (hkind : Line.kind raw = .origin) :
    counter (before ++ [raw]) = Line.origin raw := by
  have hbase : base (before ++ [raw]) = Line.origin raw := by
    simp [base, hkind]
  have hwords : wordsSinceOrigin (before ++ [raw]) = 0 := by
    rw [wordsSinceOrigin, List.rtakeWhile_concat_neg _ _ _ (by simp [hkind])]
    rfl
  rw [counter, hbase, hwords]
  simp

theorem counter_append_of_ne {before : List Text} {raw : Text} (hkind : Line.kind raw ≠ .origin) :
    counter (before ++ [raw]) = counter before + (if Line.takesWord raw then 1 else 0) := by
  have hbase : base (before ++ [raw]) = base before := by
    simp [base, hkind]
  have hwords : wordsSinceOrigin (before ++ [raw]) =
      wordsSinceOrigin before + (if Line.takesWord raw then 1 else 0) := by
    rw [wordsSinceOrigin, List.rtakeWhile_concat_pos _ _ _ (by simp [hkind]), List.countP_append]
    simp [wordsSinceOrigin, List.countP_cons]
  rw [counter, counter, hbase, hwords]
  by_cases hword : Line.takesWord raw = true
  · simp only [hword, ↓reduceIte]
    omega
  · simp [hword]

theorem takesWord_of_origin {raw : Text} (hkind : Line.kind raw = .origin) :
    Line.takesWord raw = false := by
  simp [Line.takesWord, hkind]

/-- The counter moves on as the record of the line says. -/
theorem counter_append_singleton (file : Text) (before : List Text) (raw : Text) (number : Int) :
    counter (before ++ [raw]) = (Line.record file raw number (counter before)).next := by
  by_cases hkind : Line.kind raw = .origin
  · rw [counter_append_origin hkind]
    simp [Record.next, Line.record, hkind, takesWord_of_origin hkind]
  · rw [counter_append_of_ne hkind]
    cases hword : Line.takesWord raw <;> simp [Record.next, Line.record, hkind, hword]

theorem origin_nonneg (raw : Text) : 0 ≤ Line.origin raw :=
  Int.natCast_nonneg _

theorem counter_nonneg (before : List Text) : 0 ≤ counter before := by
  have hbase : 0 ≤ base before := by
    unfold base
    cases (before.filter (fun raw => Line.kind raw == .origin)).getLast? with
    | none => simp
    | some raw => exact origin_nonneg raw
  unfold counter
  omega

end Source

/-- A line together with the lines before it. -/
structure Position where
  before : List Text
  raw : Text
  deriving DecidableEq, Repr

namespace Position

def number (position : Position) : Int :=
  position.before.length + 1

def place (file : Text) (position : Position) : Place :=
  ⟨file, position.number⟩

def counter (position : Position) : Int :=
  Source.counter position.before

/-- The address that a label on the line is bound to: the one that an origin line sets, and the counter
on any other line. -/
def bound (position : Position) : Int :=
  if Line.kind position.raw = .origin then Line.origin position.raw else position.counter

def record (file : Text) (position : Position) : Record :=
  Line.record file position.raw position.number position.counter

theorem bound_nonneg (position : Position) : 0 ≤ position.bound := by
  unfold bound
  split
  · exact Source.origin_nonneg position.raw
  · exact Source.counter_nonneg position.before

@[simp] theorem address_record (file : Text) (position : Position) :
    (position.record file).address = position.bound := rfl

@[simp] theorem place_record (file : Text) (position : Position) :
    (position.record file).place = position.place file := rfl

/-- A word goes to the address of the counter. -/
theorem bound_of_takesWord {position : Position} (hword : Line.takesWord position.raw = true) :
    position.bound = position.counter := by
  unfold bound
  split
  · rename_i hkind
    rw [Source.takesWord_of_origin hkind] at hword
    contradiction
  · rfl

/-- The definition that the line makes, if it has a label. -/
def definition? (file : Text) (position : Position) : Option Definition :=
  (Line.label? position.raw).map
    (fun label => ⟨label, position.bound, some (position.place file)⟩)

end Position

namespace Source

/-- The positions of `rest` behind the lines `before`. -/
def positionsFrom (before : List Text) : List Text → List Position
  | [] => []
  | raw :: rest => ⟨before, raw⟩ :: positionsFrom (before ++ [raw]) rest

/-- Every line of a source in its place, in order. -/
def positions (lines : List Text) : List Position :=
  positionsFrom [] lines

theorem positionsFrom_append (before first second : List Text) :
    positionsFrom before (first ++ second) =
      positionsFrom before first ++ positionsFrom (before ++ first) second := by
  induction first generalizing before with
  | nil => simp [positionsFrom]
  | cons raw rest ih => simp [positionsFrom, ih]

/-- What is collected from lines does not depend on the lines before them, except through the counter
and what the views make of their number. -/
theorem flatMap_positionsFrom_congr {α : Type} {view other : Position → List α}
    {before front lines : List Text} (hcounter : counter before = counter front)
    (hview : ∀ more raw after, lines = more ++ raw :: after →
      counter (before ++ more) = counter (front ++ more) →
        view ⟨before ++ more, raw⟩ = other ⟨front ++ more, raw⟩) :
    (positionsFrom before lines).flatMap view = (positionsFrom front lines).flatMap other := by
  induction lines generalizing before front with
  | nil => rfl
  | cons raw rest ih =>
      have hhead : view ⟨before, raw⟩ = other ⟨front, raw⟩ := by
        simpa using hview [] raw rest rfl (by simpa using hcounter)
      have hnext : counter (before ++ [raw]) = counter (front ++ [raw]) := by
        rw [counter_append_singleton [] before raw 0, hcounter,
          ← counter_append_singleton [] front raw 0]
      have htail : (positionsFrom (before ++ [raw]) rest).flatMap view =
          (positionsFrom (front ++ [raw]) rest).flatMap other := by
        apply ih hnext
        intro more line after hrest hmore
        simpa using hview (raw :: more) line after (by rw [hrest]; rfl) (by simpa using hmore)
      simp only [positionsFrom, List.flatMap_cons, hhead, htail]

theorem positions_append_singleton (before : List Text) (raw : Text) :
    positions (before ++ [raw]) = positions before ++ [⟨before, raw⟩] := by
  simp [positions, positionsFrom_append, positionsFrom]

theorem mem_positionsFrom_iff (position : Position) (before lines : List Text) :
    position ∈ positionsFrom before lines ↔
      ∃ front after, lines = front ++ position.raw :: after ∧ position.before = before ++ front := by
  induction lines generalizing before with
  | nil => simp [positionsFrom]
  | cons raw rest ih =>
      simp only [positionsFrom, List.mem_cons, ih]
      constructor
      · rintro (rfl | ⟨front, after, rfl, hbefore⟩)
        · exact ⟨[], rest, rfl, by simp⟩
        · exact ⟨raw :: front, after, rfl, by simp [hbefore]⟩
      · rintro ⟨front, after, hsplit, hbefore⟩
        cases front with
        | nil =>
            left
            obtain ⟨rfl, rfl⟩ := List.cons.inj hsplit
            simp only [List.append_nil] at hbefore
            rw [← hbefore]
        | cons head front =>
            right
            obtain ⟨rfl, rfl⟩ := List.cons.inj hsplit
            exact ⟨front, after, rfl, by simp [hbefore]⟩

/-- The positions of a source are the ways of cutting it at a line. -/
theorem mem_positions_iff (position : Position) (lines : List Text) :
    position ∈ positions lines ↔ ∃ after, lines = position.before ++ position.raw :: after := by
  rw [positions, mem_positionsFrom_iff]
  constructor
  · rintro ⟨front, after, hsplit, hbefore⟩
    rw [List.nil_append] at hbefore
    exact ⟨after, by rw [hsplit, hbefore]⟩
  · rintro ⟨after, hsplit⟩
    exact ⟨position.before, after, hsplit, rfl⟩

theorem map_raw_positions (lines : List Text) : (positions lines).map Position.raw = lines := by
  have hgeneral : ∀ before, (positionsFrom before lines).map Position.raw = lines := by
    induction lines with
    | nil => intro before; rfl
    | cons raw rest ih => intro before; simp [positionsFrom, ih]
  exact hgeneral []

/-- A number belongs to one line only. -/
theorem position_eq_of_number_eq {lines : List Text} {first second : Position}
    (hfirst : first ∈ positions lines) (hsecond : second ∈ positions lines)
    (hnumber : first.number = second.number) : first = second := by
  obtain ⟨after, hsplit⟩ := (mem_positions_iff first lines).mp hfirst
  obtain ⟨later, hcut⟩ := (mem_positions_iff second lines).mp hsecond
  have hlength : first.before.length = second.before.length := by
    simp only [Position.number] at hnumber
    omega
  rw [hsplit] at hcut
  obtain ⟨hbefore, hrest⟩ := List.append_inj hcut hlength
  obtain ⟨hraw, -⟩ := List.cons.inj hrest
  cases first
  cases second
  simp_all

def definitions (file : Text) (lines : List Text) : List Definition :=
  (positions lines).filterMap (Position.definition? file)

theorem definitions_append_singleton (file : Text) (before : List Text) (raw : Text) :
    definitions file (before ++ [raw]) =
      definitions file before ++ (Position.definition? file ⟨before, raw⟩).toList := by
  rw [definitions, positions_append_singleton, List.filterMap_append]
  cases hdefinition : Position.definition? file ⟨before, raw⟩ <;>
    simp [definitions, hdefinition]

theorem map_name_definitions (file : Text) (lines : List Text) :
    (definitions file lines).map Definition.name = lines.filterMap Line.label? := by
  induction lines using List.reverseRecOn with
  | nil => rfl
  | append_singleton before raw ih =>
      rw [definitions_append_singleton, List.map_append, ih, List.filterMap_append]
      cases hlabel : Line.label? raw <;> simp [Position.definition?, hlabel]

theorem last?_append_of_label {file label raw : Text} (hlabel : Line.label? raw = some label)
    (before : List Text) :
    Definition.last? label (definitions file (before ++ [raw])) =
      some ⟨label, Position.bound ⟨before, raw⟩, some (Position.place file ⟨before, raw⟩)⟩ := by
  have hself := Definition.ofLabel_append_self (definitions file before)
    ⟨label, Position.bound ⟨before, raw⟩, some (Position.place file ⟨before, raw⟩)⟩
  simp [definitions_append_singleton, Position.definition?, hlabel, Definition.last?, hself]

theorem last?_append_of_ne {label raw : Text} (hlabel : Line.label? raw ≠ some label) (file : Text)
    (before : List Text) :
    Definition.last? label (definitions file (before ++ [raw])) =
      Definition.last? label (definitions file before) := by
  rw [definitions_append_singleton]
  cases hdefinition : Position.definition? file ⟨before, raw⟩ with
  | none => simp
  | some definition =>
      obtain ⟨name, hname, rfl⟩ := Option.map_eq_some_iff.mp hdefinition
      have hne : name ≠ label := fun heq => hlabel (heq ▸ hname)
      rw [Option.toList_some, Definition.last?, Definition.ofLabel_append_of_ne _ hne,
        Definition.last?]

/-- The definition of a label that counts is made by the last line with the label. -/
theorem last?_definitions_eq_some_iff (file label : Text) (lines : List Text)
    (definition : Definition) :
    Definition.last? label (definitions file lines) = some definition ↔
      ∃ before raw after, lines = before ++ raw :: after ∧ Line.label? raw = some label ∧
        (∀ later ∈ after, Line.label? later ≠ some label) ∧
        definition = ⟨label, Position.bound ⟨before, raw⟩,
          some (Position.place file ⟨before, raw⟩)⟩ := by
  induction lines using List.reverseRecOn with
  | nil => simp [definitions, positions, positionsFrom, Definition.last?, Definition.ofLabel]
  | append_singleton front last ih =>
      by_cases hlabel : Line.label? last = some label
      · rw [last?_append_of_label hlabel]
        constructor
        · intro heq
          exact ⟨front, last, [], rfl, hlabel, by simp, (Option.some.inj heq).symm⟩
        · rintro ⟨before, raw, after, hsplit, -, hlater, rfl⟩
          -- The last line has the label, so no line can stand behind the one that counts.
          rcases List.eq_nil_or_concat after with rfl | ⟨middle, final, rfl⟩
          · obtain ⟨rfl, heq⟩ := List.append_inj' hsplit rfl
            rw [List.singleton_inj] at heq
            rw [heq]
          · have hfinal : last = final := by
              rw [List.concat_eq_append, ← List.cons_append, ← List.append_assoc] at hsplit
              exact List.singleton_inj.mp (List.append_inj' hsplit rfl).2
            exact absurd (hfinal ▸ hlabel) (hlater final (by simp))
      · rw [last?_append_of_ne hlabel, ih]
        constructor
        · rintro ⟨before, raw, after, rfl, hraw, hlater, hdefinition⟩
          refine ⟨before, raw, after ++ [last], by simp, hraw, ?_, hdefinition⟩
          intro later hmem
          rcases List.mem_append.mp hmem with hafter | hlast
          · exact hlater later hafter
          · rwa [List.mem_singleton.mp hlast]
        · rintro ⟨before, raw, after, hsplit, hraw, hlater, hdefinition⟩
          rcases List.eq_nil_or_concat after with rfl | ⟨middle, final, rfl⟩
          · obtain ⟨-, heq⟩ := List.append_inj' hsplit rfl
            rw [List.singleton_inj] at heq
            exact absurd (heq ▸ hraw) hlabel
          · rw [List.concat_eq_append, ← List.cons_append, ← List.append_assoc] at hsplit
            obtain ⟨rfl, -⟩ := List.append_inj' hsplit rfl
            exact ⟨before, raw, middle, rfl, hraw, fun later hmem => hlater later (by simp [hmem]),
              hdefinition⟩

end Source

end TwoPass
