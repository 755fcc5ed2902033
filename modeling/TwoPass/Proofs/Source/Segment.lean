import TwoPass.Proofs.Source.Edit
import TwoPass.Proofs.Source.Wording

/-!
# Segments

A segment starts with an origin line, so where its lines stand in memory does not depend on what comes
before it.  If no other segment defines its labels, the addresses of its labels do not depend on the
others either, nor does whether a label moves.  What is collected from the lines of a source is then
collected segment by segment.
-/

namespace TwoPass

/-- Lines that start with an origin line. -/
structure Segment where
  first : Text
  rest : List Text
  begins : Line.kind first = .origin

namespace Segment

def lines (segment : Segment) : List Text :=
  segment.first :: segment.rest

def labels (segment : Segment) : List Text :=
  segment.lines.filterMap Line.label?

def stripped (segment : Segment) : Segment where
  first := Text.dropLineEnds segment.first
  rest := segment.rest.map Text.dropLineEnds
  begins := by rw [Line.kind_dropLineEnds, segment.begins]

def source (segments : List Segment) : List Text :=
  segments.flatMap lines

/-- No label is defined in two segments. -/
def Apart (segments : List Segment) : Prop :=
  segments.Pairwise fun first second => ∀ label ∈ first.labels, label ∉ second.labels

instance (segments : List Segment) : Decidable (Apart segments) :=
  inferInstanceAs (Decidable (List.Pairwise _ _))

end Segment

namespace Source

/-- Behind an origin line the counter does not depend on what comes before. -/
theorem counter_append_of_origin {first : Text} (hbegins : Line.kind first = .origin)
    (before more : List Text) : counter (before ++ first :: more) = counter (first :: more) := by
  induction more using List.reverseRecOn with
  | nil => rw [counter_append_origin hbegins, ← List.nil_append [first], counter_append_origin hbegins]
  | append_singleton front raw ih =>
      rw [← List.cons_append, ← List.append_assoc, counter_append, ih, ← counter_append]

theorem lookup_symbols_append_of_label {label raw : Text} (hlabel : Line.label? raw = some label)
    (file : Text) (before : List Text) :
    (symbols file (before ++ [raw])).lookup label = some (Position.bound ⟨before, raw⟩) := by
  rw [lookup_symbols, last?_append_of_label hlabel]
  rfl

theorem lookup_symbols_append_of_ne {label raw : Text} (hlabel : Line.label? raw ≠ some label)
    (file : Text) (before : List Text) :
    (symbols file (before ++ [raw])).lookup label = (symbols file before).lookup label := by
  rw [lookup_symbols, last?_append_of_ne hlabel, ← lookup_symbols]

/-- Lines that do not define a label have no influence on its address. -/
theorem lookup_symbols_append {label : Text} {after : List Text}
    (hafter : ∀ raw ∈ after, Line.label? raw ≠ some label) (file : Text) (before : List Text) :
    (symbols file (before ++ after)).lookup label = (symbols file before).lookup label := by
  induction after using List.reverseRecOn with
  | nil => rw [List.append_nil]
  | append_singleton front raw ih =>
      rw [← List.append_assoc, lookup_symbols_append_of_ne (hafter raw (by simp))]
      exact ih fun line hmem => hafter line (List.mem_append_left _ hmem)

theorem lookup_symbols_of_absent {label : Text} {lines : List Text}
    (habsent : ∀ raw ∈ lines, Line.label? raw ≠ some label) (file : Text) :
    (symbols file lines).lookup label = none := by
  rw [lookup_symbols_eq_none_iff]
  intro raw hmem hdefines
  exact habsent raw hmem ((Line.label?_eq_some_iff raw label).mpr hdefines)

end Source

namespace Position

variable {before more : List Text} {raw first : Text}

/-- The address of a label on a line of a segment does not depend on what comes before the segment. -/
theorem bound_append_of_origin (hbegins : Line.kind first = .origin) (before more : List Text)
    (raw : Text) : bound ⟨before ++ first :: more, raw⟩ = bound ⟨first :: more, raw⟩ := by
  simp only [bound, counter, Source.counter_append_of_origin hbegins]

theorem bound_of_origin (hbegins : Line.kind first = .origin) (before other : List Text) :
    bound ⟨before, first⟩ = bound ⟨other, first⟩ := by
  simp only [bound, hbegins, ↓reduceIte]

end Position

/-- A label has the same address within a segment as behind lines that do not define it. -/
theorem Source.lookup_symbols_append_of_origin {first label : Text} {before : List Text}
    (hbegins : Line.kind first = .origin) (hbefore : ∀ raw ∈ before, Line.label? raw ≠ some label)
    (file : Text) (more : List Text) :
    (symbols file (before ++ first :: more)).lookup label =
      (symbols file (first :: more)).lookup label := by
  induction more using List.reverseRecOn with
  | nil =>
      by_cases hlabel : Line.label? first = some label
      · rw [lookup_symbols_append_of_label hlabel, Position.bound_of_origin hbegins before [],
          ← lookup_symbols_append_of_label hlabel file []]
        rfl
      · rw [lookup_symbols_append_of_ne hlabel, lookup_symbols_of_absent hbefore,
          lookup_symbols_of_absent (by simpa using hlabel)]
  | append_singleton front raw ih =>
      rw [← List.cons_append, ← List.append_assoc]
      by_cases hlabel : Line.label? raw = some label
      · rw [lookup_symbols_append_of_label hlabel, lookup_symbols_append_of_label hlabel,
          Position.bound_append_of_origin hbegins]
      · rw [lookup_symbols_append_of_ne hlabel, lookup_symbols_append_of_ne hlabel, ih]

namespace Position

section Alike

variable {α : Type} (mark : α) (file : Text) {position other : Position}
  (hraw : other.raw = position.raw) (hbound : other.bound = position.bound)

include hraw hbound

theorem counter_eq_of_bound (hword : Line.takesWord position.raw = true) :
    other.counter = position.counter := by
  rw [← bound_of_takesWord hword, ← hbound, bound_of_takesWord (hraw ▸ hword)]

theorem overflowWarnings_alike :
    (other.overflowWarnings file).map (fun _ => mark) =
      (position.overflowWarnings file).map (fun _ => mark) := by
  unfold overflowWarnings
  rw [hraw]
  cases hword : Line.takesWord position.raw with
  | false => rfl
  | true =>
      rw [counter_eq_of_bound hraw hbound hword]
      split <;> rfl

variable (hlookup : ∀ label, Line.label? position.raw = some label →
  (Source.symbols file other.before).lookup label =
    (Source.symbols file position.before).lookup label)

include hlookup

/-- Whether a line moves its label is decided by where the label was before and where it is now. -/
theorem redefinitionWarnings_alike :
    (other.redefinitionWarnings file).map (fun _ => mark) =
      (position.redefinitionWarnings file).map (fun _ => mark) := by
  unfold redefinitionWarnings definition?
  rw [hraw, hbound]
  cases hlabel : Line.label? position.raw with
  | none => rfl
  | some label =>
      have haddress := hlookup label hlabel
      rw [Source.lookup_symbols, Source.lookup_symbols] at haddress
      simp only [Option.map_some, Definition.redefinitionWarnings]
      cases hother : Definition.last? label (Source.definitions file other.before) with
      | none =>
          rw [hother, Option.map_none, eq_comm, Option.map_eq_none_iff] at haddress
          rw [haddress]
      | some previous =>
          rw [hother, Option.map_some, eq_comm, Option.map_eq_some_iff] at haddress
          obtain ⟨earlier, hearlier, hsame⟩ := haddress
          simp only [hearlier, hsame]
          split <;> rfl

/-- How much the survey has to say about a line does not depend on its number. -/
theorem surveyWarnings_alike :
    (other.surveyWarnings file).map (fun _ => mark) =
      (position.surveyWarnings file).map (fun _ => mark) := by
  rw [surveyWarnings, List.map_append, overflowWarnings_alike mark file hraw hbound,
    redefinitionWarnings_alike mark file hraw hbound hlookup, ← List.map_append, surveyWarnings]

end Alike

end Position

namespace Segment

variable {segments : List Segment}

theorem label?_ne_of_not_mem {segment : Segment} {label : Text} (hnot : label ∉ segment.labels) :
    ∀ raw ∈ segment.lines, Line.label? raw ≠ some label := by
  intro raw hmem hlabel
  exact hnot (List.mem_filterMap.mpr ⟨raw, hmem, hlabel⟩)

theorem label?_ne_of_source {label : Text} (hnot : ∀ segment ∈ segments, label ∉ segment.labels) :
    ∀ raw ∈ source segments, Line.label? raw ≠ some label := by
  intro raw hmem
  obtain ⟨segment, hsegment, hline⟩ := List.mem_flatMap.mp hmem
  exact label?_ne_of_not_mem (hnot segment hsegment) raw hline

/-- A label of one segment belongs to no other. -/
theorem Apart.not_mem {front back : List Segment} {segment : Segment}
    (hapart : Apart (front ++ segment :: back)) {label : Text} (hlabel : label ∈ segment.labels) :
    (∀ other ∈ front, label ∉ other.labels) ∧ ∀ other ∈ back, label ∉ other.labels := by
  obtain ⟨-, hbehind, hbefore⟩ := List.pairwise_append.mp hapart
  constructor
  · intro other hother hmem
    exact hbefore other hother segment List.mem_cons_self label hmem hlabel
  · intro other hother hmem
    exact List.rel_of_pairwise_cons hbehind hother label hlabel hmem

/-- A label has in the whole source the address that it has in its own segment. -/
theorem lookup_symbols_source {segment : Segment} (hapart : Apart segments)
    (hsegment : segment ∈ segments) {label : Text} (hlabel : label ∈ segment.labels) (file : Text) :
    (Source.symbols file (source segments)).lookup label =
      (Source.symbols file segment.lines).lookup label := by
  obtain ⟨front, back, rfl⟩ := List.append_of_mem hsegment
  obtain ⟨hfront, hback⟩ := hapart.not_mem hlabel
  have hsource : source (front ++ segment :: back) =
      (source front ++ segment.first :: segment.rest) ++ source back := by
    simp [source, lines]
  rw [hsource, Source.lookup_symbols_append (label?_ne_of_source hback),
    Source.lookup_symbols_append_of_origin segment.begins (label?_ne_of_source hfront), lines]

/-- Earlier segments have no influence on where a label stood before a line of its segment. -/
theorem lookup_symbols_before {front back : List Segment} {segment : Segment}
    (hapart : Apart (front ++ segment :: back)) {more after : List Text} {raw label : Text}
    (hsplit : segment.lines = more ++ raw :: after) (hlabel : Line.label? raw = some label)
    (file : Text) :
    (Source.symbols file (source front ++ more)).lookup label =
      (Source.symbols file more).lookup label := by
  have hmem : label ∈ segment.labels := by
    apply List.mem_filterMap.mpr
    exact ⟨raw, by simp [hsplit], hlabel⟩
  have hfront := label?_ne_of_source (hapart.not_mem hmem).1
  cases more with
  | nil =>
      rw [List.append_nil, Source.lookup_symbols_of_absent hfront,
        Source.lookup_symbols_of_absent (by simp)]
  | cons line rest =>
      have hbegins : Line.kind line = .origin := by
        have hfirst := segment.begins
        rwa [(List.cons.inj hsplit).1] at hfirst
      exact Source.lookup_symbols_append_of_origin hbegins hfront file rest

/-- What is collected from the lines of a segment does not depend on what comes before it, except
through what the views make of the number of a line and of earlier definitions. -/
theorem flatMap_positionsFrom (segment : Segment) {α : Type} {view other : Position → List α}
    {before : List Text}
    (hview : ∀ more raw after, segment.lines = more ++ raw :: after →
      Position.bound ⟨before ++ more, raw⟩ = Position.bound ⟨more, raw⟩ →
        view ⟨before ++ more, raw⟩ = other ⟨more, raw⟩) :
    (Source.positionsFrom before segment.lines).flatMap view =
      (Source.positions segment.lines).flatMap other := by
  have hfirst : view ⟨before, segment.first⟩ = other ⟨[], segment.first⟩ := by
    simpa using hview [] segment.first segment.rest rfl
      (Position.bound_of_origin segment.begins (before ++ []) [])
  have hrest : (Source.positionsFrom (before ++ [segment.first]) segment.rest).flatMap view =
      (Source.positionsFrom [segment.first] segment.rest).flatMap other := by
    apply Source.flatMap_positionsFrom_congr
    · exact Source.counter_append_of_origin segment.begins before []
    · intro more raw after hsplit _
      rw [List.append_assoc, List.singleton_append]
      apply hview (segment.first :: more) raw after
      · rw [lines, hsplit, List.cons_append]
      · exact Position.bound_append_of_origin segment.begins before more raw
  simp only [lines, Source.positions, Source.positionsFrom, List.flatMap_cons, hfirst, List.nil_append,
    hrest]

/-- What is collected from a source is collected segment by segment. -/
theorem flatMap_positions_source {α : Type} {view : Position → List α} {share : Segment → List α}
    (hlocal : ∀ front segment back, segments = front ++ segment :: back →
      (Source.positionsFrom (source front) segment.lines).flatMap view = share segment) :
    (Source.positions (source segments)).flatMap view = segments.flatMap share := by
  induction segments using List.reverseRecOn with
  | nil => rfl
  | append_singleton front segment ih =>
      have hfront := ih fun before other back hsplit => hlocal before other (back ++ [segment])
        (by rw [hsplit, List.append_assoc, List.cons_append])
      have hsource : source (front ++ [segment]) = source front ++ segment.lines := by
        simp [source]
      rw [hsource, Source.positions, Source.positionsFrom_append, List.flatMap_append,
        List.nil_append, hlocal front segment [] rfl, ← Source.positions, hfront,
        List.flatMap_append]
      simp

end Segment

end TwoPass
