import TwoPass.Proofs.Assembly
import TwoPass.Proofs.Symbol.Relocation

/-!
# Edited sources

An edit is told line by line: each line of the edited source either stands for a line of the source
before the edit, or has been inserted.  If the inserted lines are blank, and each other line takes as
many words, sets the counter and defines a label just as the line it stands for, then the survey of the
edited source is the survey of the source with the lines moved.  Labels may have other names, as long as
labels that differ have names that differ.
-/

namespace TwoPass

namespace Line

/-- The counter that the line sets, if it sets one. -/
def origin? (raw : Text) : Option Int :=
  if kind raw = .origin then some (origin raw) else none

theorem label?_of_blank {raw : Text} (hblank : kind raw = .blank) : label? raw = none := by
  have htrim := (kind_eq_blank_iff raw).mp hblank
  rw [label?, splitLabel_of_blank ((Text.trim_eq_nil_iff (code raw)).mp htrim)]

theorem takesWord_of_blank {raw : Text} (hblank : kind raw = .blank) : takesWord raw = false := by
  simp [takesWord, hblank]

theorem origin?_of_blank {raw : Text} (hblank : kind raw = .blank) : origin? raw = none := by
  simp [origin?, hblank]

theorem isName_of_label? {raw label : Text} (hlabel : label? raw = some label) :
    Text.isName label = true := by
  obtain ⟨_, _, _, _, hname⟩ := (label?_eq_some_iff raw label).mp hlabel
  exact hname

/-- The second line takes the room of the first, and its label has the name that the label of the first
is renamed to. -/
structure LaidOutAs (rename : Text → Text) (raw text : Text) : Prop where
  label : label? text = (label? raw).map rename
  takesWord : takesWord text = takesWord raw
  origin : origin? text = origin? raw

end Line

namespace Source

theorem counter_append (before : List Text) (raw : Text) :
    counter (before ++ [raw]) =
      (Line.origin? raw).getD (counter before + if Line.takesWord raw then 1 else 0) := by
  by_cases hkind : Line.kind raw = .origin
  · rw [counter_append_origin hkind, Line.origin?, if_pos hkind, Option.getD_some]
  · rw [counter_append_of_ne hkind, Line.origin?, if_neg hkind, Option.getD_none]

theorem isName_of_mem_definitions {file : Text} {source : List Text} {definition : Definition}
    (hmem : definition ∈ definitions file source) : Text.isName definition.name = true := by
  have hname : definition.name ∈ source.filterMap Line.label? := by
    rw [← map_name_definitions file source]
    exact List.mem_map_of_mem hmem
  obtain ⟨raw, -, hlabel⟩ := List.mem_filterMap.mp hname
  exact Line.isName_of_label? hlabel

end Source

theorem Position.bound_eq_getD (position : Position) :
    position.bound = (Line.origin? position.raw).getD position.counter := by
  by_cases hkind : Line.kind position.raw = .origin
  · simp [Position.bound, Line.origin?, hkind]
  · simp [Position.bound, Line.origin?, hkind]

theorem Position.surveyWarnings_of_blank {position : Position}
    (hblank : Line.kind position.raw = .blank) (file : Text) : position.surveyWarnings file = [] := by
  simp [surveyWarnings, overflowWarnings, redefinitionWarnings, definition?,
    Line.takesWord_of_blank hblank, Line.label?_of_blank hblank]

/-- A line of an edited source, and the line of the source before the edit that it stands for; an
inserted line stands for none. -/
structure EditedLine where
  original : Option Text
  text : Text
  deriving DecidableEq, Repr

/-- The line is blank if it has been inserted, and else stands in a relation to the line it stands
for. -/
inductive EditedLine.Follows (R : Text → Text → Prop) : EditedLine → Prop
  | inserted {text : Text} (hblank : Line.kind text = .blank) : Follows R ⟨none, text⟩
  | kept {raw text : Text} (hrelated : R raw text) : Follows R ⟨some raw, text⟩

theorem EditedLine.Follows.mono {R S : Text → Text → Prop} (himp : ∀ raw text, R raw text → S raw text)
    {line : EditedLine} (hfollows : line.Follows R) : line.Follows S := by
  cases hfollows with
  | inserted hblank => exact .inserted hblank
  | kept hrelated => exact .kept (himp _ _ hrelated)

abbrev Edit := List EditedLine

namespace Edit

def originals (edit : Edit) : List Text :=
  edit.filterMap EditedLine.original

def texts (edit : Edit) : List Text :=
  edit.map EditedLine.text

@[simp] theorem originals_append (front rest : Edit) :
    originals (front ++ rest) = originals front ++ originals rest :=
  List.filterMap_append

@[simp] theorem originals_cons_inserted (text : Text) (rest : Edit) :
    originals (⟨none, text⟩ :: rest) = originals rest := rfl

@[simp] theorem originals_cons_kept (raw text : Text) (rest : Edit) :
    originals (⟨some raw, text⟩ :: rest) = raw :: originals rest := rfl

@[simp] theorem originals_nil : originals [] = [] := rfl

@[simp] theorem texts_append (front rest : Edit) :
    texts (front ++ rest) = texts front ++ texts rest :=
  List.map_append

@[simp] theorem texts_cons (line : EditedLine) (rest : Edit) :
    texts (line :: rest) = line.text :: texts rest := rfl

@[simp] theorem texts_nil : texts [] = [] := rfl

/-- `shift` takes the number of every line that is kept to its number after the edit. -/
def Tracks (shift : Int → Int) (edit : Edit) : Prop :=
  ∀ front raw text rest, edit = front ++ ⟨some raw, text⟩ :: rest →
    shift ((originals front).length + 1) = (texts front).length + 1

theorem Tracks.of_append {shift : Int → Int} {front rest : Edit}
    (htracks : Tracks shift (front ++ rest)) : Tracks shift front := by
  intro before raw text after hfront
  apply htracks before raw text (after ++ rest)
  rw [hfront, List.append_assoc, List.cons_append]

/-- If no line is inserted, numbers stay. -/
theorem tracks_id {edit : Edit} (hkept : ∀ line ∈ edit, line.original.isSome = true) :
    Tracks id edit := by
  intro front raw text rest hedit
  have hlength : (originals front).length = front.length := by
    rw [originals, List.length_filterMap_eq_countP, List.countP_eq_length]
    intro line hmem
    exact hkept line (hedit ▸ List.mem_append_left _ hmem)
  simp [texts, hlength]

/-- Where the line with the given index stands after the edit, both counted from zero. -/
def index : Edit → Nat → Nat
  | [], line => line
  | ⟨none, _⟩ :: rest, line => index rest line + 1
  | ⟨some _, _⟩ :: _, 0 => 0
  | ⟨some _, _⟩ :: rest, line + 1 => index rest line + 1

def shift (edit : Edit) (line : Int) : Int :=
  index edit (line - 1).toNat + 1

theorem index_append_kept (front rest : Edit) (raw text : Text) :
    index (front ++ ⟨some raw, text⟩ :: rest) (originals front).length = front.length := by
  induction front with
  | nil => rfl
  | cons line more ih => rcases line with ⟨_ | original, new⟩ <;> simpa [index] using ih

theorem tracks_shift (edit : Edit) : Tracks (shift edit) edit := by
  intro front raw text rest hedit
  have hindex := index_append_kept front rest raw text
  rw [← hedit] at hindex
  simp [shift, hindex, texts]

section Layout

variable {rename : Text → Text} {shift : Int → Int} {edit : Edit}

theorem counter_texts (hlayout : ∀ line ∈ edit, line.Follows (Line.LaidOutAs rename)) :
    Source.counter (texts edit) = Source.counter (originals edit) := by
  induction edit using List.reverseRecOn with
  | nil => rfl
  | append_singleton front line ih =>
      have hfront := ih fun other hmem => hlayout other (List.mem_append_left _ hmem)
      cases hlayout line (by simp) with
      | inserted hblank =>
          simp [Source.counter_append, hfront, Line.origin?_of_blank hblank,
            Line.takesWord_of_blank hblank]
      | kept hlaid => simp [Source.counter_append, hfront, hlaid.origin, hlaid.takesWord]

/-- What the edit makes of a line behind the lines `front`. -/
structure Keeps (rename : Text → Text) (shift : Int → Int) (front : Edit) (raw text : Text) :
    Prop where
  layout : ∀ line ∈ front, line.Follows (Line.LaidOutAs rename)
  tracks : Tracks shift front
  line : Line.LaidOutAs rename raw text
  number : Position.number ⟨texts front, text⟩ = shift (Position.number ⟨originals front, raw⟩)

theorem keeps_of_append {front rest : Edit} {raw text : Text} (htracks : Tracks shift edit)
    (hlayout : ∀ line ∈ edit, line.Follows (Line.LaidOutAs rename))
    (hedit : edit = front ++ ⟨some raw, text⟩ :: rest) : Keeps rename shift front raw text := by
  have hnumber := htracks front raw text rest hedit
  subst hedit
  refine ⟨fun line hmem => hlayout line (List.mem_append_left _ hmem), htracks.of_append, ?_,
    hnumber.symm⟩
  cases hlayout ⟨some raw, text⟩ (by simp) with
  | kept hlaid => exact hlaid

namespace Keeps

variable {front : Edit} {raw text : Text}

theorem counter (hkeeps : Keeps rename shift front raw text) :
    Position.counter ⟨texts front, text⟩ = Position.counter ⟨originals front, raw⟩ :=
  counter_texts hkeeps.layout

theorem place (hkeeps : Keeps rename shift front raw text) (file : Text) :
    Position.place file ⟨texts front, text⟩ =
      (Position.place file ⟨originals front, raw⟩).moved shift := by
  rw [Position.place, hkeeps.number]
  rfl

theorem definition? (hkeeps : Keeps rename shift front raw text) (file : Text) :
    Position.definition? file ⟨texts front, text⟩ =
      (Position.definition? file ⟨originals front, raw⟩).map (Definition.moved rename shift) := by
  have hbound : Position.bound ⟨texts front, text⟩ = Position.bound ⟨originals front, raw⟩ := by
    rw [Position.bound_eq_getD, Position.bound_eq_getD, hkeeps.line.origin, hkeeps.counter]
  simp only [Position.definition?, hkeeps.line.label, Option.map_map, hbound, hkeeps.place]
  rfl

end Keeps

theorem definitions_texts (htracks : Tracks shift edit)
    (hlayout : ∀ line ∈ edit, line.Follows (Line.LaidOutAs rename)) (file : Text) :
    Source.definitions file (texts edit) =
      (Source.definitions file (originals edit)).map (Definition.moved rename shift) := by
  induction edit using List.reverseRecOn with
  | nil => rfl
  | append_singleton front line ih =>
      have hfront := ih htracks.of_append
        fun other hmem => hlayout other (List.mem_append_left _ hmem)
      rcases line with ⟨_ | raw, text⟩
      · cases hlayout ⟨none, text⟩ (by simp) with
        | inserted hblank =>
            simp [Source.definitions_append_singleton, hfront, Position.definition?,
              Line.label?_of_blank hblank]
      · have hkeeps := keeps_of_append htracks hlayout rfl
        simp only [originals_append, originals_cons_kept, originals_nil, texts_append, texts_cons,
          texts_nil, Source.definitions_append_singleton, hfront, hkeeps.definition?,
          List.map_append]
        cases Position.definition? file ⟨originals front, raw⟩ <;> rfl

section Apart

variable (hapart : Text.KeepsNamesApart rename) (htracks : Tracks shift edit)
  (hlayout : ∀ line ∈ edit, line.Follows (Line.LaidOutAs rename))

include hapart htracks hlayout

/-- The edited source has the same symbols, renamed and in the same order. -/
theorem symbols_texts (file : Text) :
    Source.symbols file (texts edit) =
      (Source.symbols file (originals edit)).map (Prod.map rename id) := by
  have hbuild : SymbolTable.build (Source.definitions file (texts edit)) =
      (SymbolTable.build (Source.definitions file (originals edit))).map
        (Symbol.moved rename shift) := by
    rw [definitions_texts htracks hlayout]
    apply SymbolTable.build_map_moved
    intro first hfirst second hsecond
    exact hapart first.name second.name (Source.isName_of_mem_definitions hfirst)
      (Source.isName_of_mem_definitions hsecond)
  simp only [Source.symbols, Source.table, SymbolTable.bindings, hbuild, List.map_map]
  rfl

theorem lookup_symbols_texts (file : Text) {label : Text} (hname : Text.isName label = true) :
    (Source.symbols file (texts edit)).lookup (rename label) =
      (Source.symbols file (originals edit)).lookup label := by
  rw [symbols_texts hapart htracks hlayout]
  apply lookup_map_of_apart
  intro symbol hsymbol heq
  have hlisted : symbol.1 ∈ (originals edit).filterMap Line.label? := by
    rw [← List.mem_eraseDups, ← Source.map_fst_symbols file]
    exact List.mem_map_of_mem hsymbol
  obtain ⟨raw, -, hlabel⟩ := List.mem_filterMap.mp hlisted
  exact hapart symbol.1 label (Line.isName_of_label? hlabel) hname heq

end Apart

/-- The survey has the same to say about a line that is kept. -/
theorem Keeps.surveyWarnings {front : Edit} {raw text : Text}
    (hkeeps : Keeps rename shift front raw text) (hapart : Text.KeepsNamesApart rename)
    (file : Text) :
    Position.surveyWarnings file ⟨texts front, text⟩ =
      (Position.surveyWarnings file ⟨originals front, raw⟩).map (Warning.moved rename shift) := by
  have hoverflow : Position.overflowWarnings file ⟨texts front, text⟩ =
      (Position.overflowWarnings file ⟨originals front, raw⟩).map
        (Warning.moved rename shift) := by
    simp only [Position.overflowWarnings, hkeeps.line.takesWord, hkeeps.counter, hkeeps.place]
    split <;> rfl
  have hredefined : Position.redefinitionWarnings file ⟨texts front, text⟩ =
      (Position.redefinitionWarnings file ⟨originals front, raw⟩).map
        (Warning.moved rename shift) := by
    have hearlier := definitions_texts hkeeps.tracks hkeeps.layout file
    rw [Position.redefinitionWarnings, Position.redefinitionWarnings, hkeeps.definition?]
    cases hdefinition : Position.definition? file ⟨originals front, raw⟩ with
    | none => rfl
    | some definition =>
        obtain ⟨label, hlabel, rfl⟩ := Option.map_eq_some_iff.mp hdefinition
        simp only [Option.map_some, hearlier]
        apply Definition.redefinitionWarnings_map_moved
        intro earlier hearlier
        exact hapart _ _ (Source.isName_of_mem_definitions hearlier) (Line.isName_of_label? hlabel)
  rw [Position.surveyWarnings, Position.surveyWarnings, hoverflow, hredefined, List.map_append]

end Layout

/-- The positions of the lines that are kept, before and after the edit; `front` stands before them. -/
def pairsFrom (front : Edit) : Edit → List (Position × Position)
  | [] => []
  | ⟨none, text⟩ :: rest => pairsFrom (front ++ [⟨none, text⟩]) rest
  | ⟨some raw, text⟩ :: rest =>
      (⟨originals front, raw⟩, ⟨texts front, text⟩) :: pairsFrom (front ++ [⟨some raw, text⟩]) rest

def pairs (edit : Edit) : List (Position × Position) :=
  pairsFrom [] edit

theorem map_fst_pairsFrom (front edit : Edit) :
    (pairsFrom front edit).map Prod.fst =
      Source.positionsFrom (originals front) (originals edit) := by
  induction edit generalizing front with
  | nil => rfl
  | cons line rest ih =>
      rcases line with ⟨_ | raw, text⟩
      · simp [pairsFrom, ih]
      · simp [pairsFrom, Source.positionsFrom, ih]

/-- What is collected from the positions of an edited source comes from lines that are kept, if blank
lines contribute nothing. -/
theorem flatMap_positionsFrom_texts {α : Type} {view : Position → List α} {edit : Edit}
    {R : Text → Text → Prop} (hfollows : ∀ line ∈ edit, line.Follows R)
    (hblank : ∀ position : Position, Line.kind position.raw = .blank → view position = [])
    (front : Edit) :
    (Source.positionsFrom (texts front) (texts edit)).flatMap view =
      (pairsFrom front edit).flatMap (fun pair => view pair.2) := by
  induction edit generalizing front with
  | nil => rfl
  | cons line rest ih =>
      have hrest := ih fun other hmem => hfollows other (List.mem_cons_of_mem line hmem)
      cases hfollows line List.mem_cons_self with
      | @inserted text hline =>
          have hnext := hrest (front ++ [⟨none, text⟩])
          simp only [texts_append, texts_cons, texts_nil] at hnext
          simp [pairsFrom, Source.positionsFrom, hblank ⟨texts front, text⟩ hline, hnext]
      | @kept raw text _ =>
          have hnext := hrest (front ++ [⟨some raw, text⟩])
          simp only [texts_append, texts_cons, texts_nil] at hnext
          simp [pairsFrom, Source.positionsFrom, hnext]

theorem mem_pairsFrom {front edit : Edit} {pair : Position × Position}
    (hmem : pair ∈ pairsFrom front edit) :
    ∃ before raw text rest, edit = before ++ ⟨some raw, text⟩ :: rest ∧
      pair = (⟨originals (front ++ before), raw⟩, ⟨texts (front ++ before), text⟩) := by
  induction edit generalizing front with
  | nil => simp [pairsFrom] at hmem
  | cons line rest ih =>
      rcases line with ⟨_ | raw, text⟩
      · obtain ⟨before, other, new, after, rfl, rfl⟩ := ih hmem
        exact ⟨⟨none, text⟩ :: before, other, new, after, rfl, by simp⟩
      · rcases List.mem_cons.mp hmem with rfl | hrest
        · exact ⟨[], raw, text, rest, rfl, by simp⟩
        · obtain ⟨before, other, new, after, rfl, rfl⟩ := ih hrest
          exact ⟨⟨some raw, text⟩ :: before, other, new, after, rfl, by simp⟩

/-- What is collected from the positions of a source is the same after an edit if blank lines contribute
nothing and every line that is kept contributes the same. -/
theorem flatMap_positions {α : Type} {view other : Position → List α} {edit : Edit}
    {R : Text → Text → Prop} (hfollows : ∀ line ∈ edit, line.Follows R)
    (hblank : ∀ position : Position, Line.kind position.raw = .blank → other position = [])
    (hkept : ∀ front raw text rest, edit = front ++ ⟨some raw, text⟩ :: rest →
      other ⟨texts front, text⟩ = view ⟨originals front, raw⟩) :
    (Source.positions (texts edit)).flatMap other =
      (Source.positions (originals edit)).flatMap view := by
  have htexts := flatMap_positionsFrom_texts hfollows hblank []
  have horiginals : Source.positions (originals edit) = (pairs edit).map Prod.fst :=
    (map_fst_pairsFrom [] edit).symm
  rw [horiginals, List.flatMap_map]
  refine htexts.trans (List.flatMap_congr ?_)
  intro pair hmem
  obtain ⟨front, raw, text, rest, hedit, rfl⟩ := mem_pairsFrom hmem
  exact hkept front raw text rest hedit

theorem filterMap_positions {α β γ : Type} {view : Position → Option α} {other : Position → Option β}
    {seen : α → γ} {shown : β → γ} {edit : Edit} {R : Text → Text → Prop}
    (hfollows : ∀ line ∈ edit, line.Follows R)
    (hblank : ∀ position : Position, Line.kind position.raw = .blank → other position = none)
    (hkept : ∀ front raw text rest, edit = front ++ ⟨some raw, text⟩ :: rest →
      (other ⟨texts front, text⟩).map shown = (view ⟨originals front, raw⟩).map seen) :
    ((Source.positions (texts edit)).filterMap other).map shown =
      ((Source.positions (originals edit)).filterMap view).map seen := by
  rw [List.map_filterMap, List.map_filterMap, List.filterMap_eq_flatMap_toList,
    List.filterMap_eq_flatMap_toList]
  apply flatMap_positions hfollows
  · intro position hposition
    rw [hblank position hposition]
    rfl
  · intro front raw text rest hedit
    rw [hkept front raw text rest hedit]

end Edit

end TwoPass
