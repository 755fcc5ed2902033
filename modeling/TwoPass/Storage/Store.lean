import TwoPass.Storage.System

/-!
# Stored files

A store is a tree of directories and files, seen from a working directory.  A path is followed name
by name; a name that is missing, a file where a directory is needed, or a name that is too long ends
the search.  A refused write changes nothing, an accepted one replaces the whole file.
-/

namespace TwoPass

namespace SystemError

def notFound : SystemError := ⟨2, "No such file or directory"⟩

def notDirectory : SystemError := ⟨20, "Not a directory"⟩

def isDirectory : SystemError := ⟨21, "Is a directory"⟩

def nameTooLong : SystemError := ⟨36, "File name too long"⟩

end SystemError

/-- Directories and files by the names that lead to them from the root.  The root itself needs no
entry; `home` is the working directory. -/
structure Store where
  home : List Bytes
  directories : List (List Bytes)
  files : List (List Bytes × Bytes)
  deriving DecidableEq, Repr

namespace Store

def empty : Store :=
  ⟨[], [], []⟩

inductive Node where
  | directory (names : List Bytes)
  | file (names : List Bytes) (content : Bytes)
  deriving DecidableEq, Repr

def slash : UInt8 := 0x2F

def here : Bytes := [0x2E]

def parent : Bytes := [0x2E, 0x2E]

def maxName : Nat := 255

/-- A path of this length or more is refused as a whole. -/
def maxPath : Nat := 4096

def names (path : Bytes) : List Bytes :=
  (path.splitOn slash).filter (fun name => !name.isEmpty)

/-- The names that lead from the root to a path, with every step to the directory itself or to its
parent carried out. -/
def absolute (home : List Bytes) (path : Bytes) : List Bytes :=
  let base := if path.head? = some slash then [] else home
  (names path).foldl
    (fun reached name =>
      if name = here then reached else if name = parent then reached.dropLast else reached ++ [name])
    base

def isDirectory (store : Store) (names : List Bytes) : Bool :=
  names.isEmpty || store.directories.contains names

def content? (store : Store) (names : List Bytes) : Option Bytes :=
  store.files.lookup names

def enter (store : Store) (directory : List Bytes) (name : Bytes) : Except SystemError Node :=
  if name = here then .ok (.directory directory)
  else if name = parent then .ok (.directory directory.dropLast)
  else if maxName < name.length then .error .nameTooLong
  else
    let names := directory ++ [name]
    if store.isDirectory names then .ok (.directory names)
    else
      match store.content? names with
      | some content => .ok (.file names content)
      | none => .error .notFound

def follow (store : Store) : Node → List Bytes → Except SystemError Node
  | node, [] => .ok node
  | .file _ _, _ :: _ => .error .notDirectory
  | .directory names, name :: rest =>
      match store.enter names name with
      | .error error => .error error
      | .ok node => store.follow node rest

/-- Where a path starts: at the root after a slash, in the working directory otherwise. -/
def base (store : Store) (path : Bytes) : Node :=
  if path.head? = some slash then .directory [] else .directory store.home

/-- A path that no search is made for. -/
def refused? (path : Bytes) : Option SystemError :=
  if path.isEmpty then some .notFound
  else if maxPath ≤ path.length then some .nameTooLong
  else none

def endsInSlash (path : Bytes) : Bool :=
  path.getLast? == some slash

/-- What stands at a path.  A slash at the end asks for a directory. -/
def find (store : Store) (path : Bytes) : Except SystemError Node :=
  match refused? path with
  | some error => .error error
  | none =>
      match store.follow (store.base path) (names path) with
      | .ok (.file names content) =>
          if endsInSlash path then .error .notDirectory else .ok (.file names content)
      | found => found

def file? (store : Store) (path : Bytes) : Option (List Bytes) :=
  match store.find path with
  | .ok (.file names _) => some names
  | _ => none

/-- Whatever a store holds can be read. -/
def status (store : Store) (path : Bytes) : Except SystemError Status :=
  match store.find path with
  | .ok (.file _ _) => .ok ⟨false, true⟩
  | .ok (.directory _) => .ok ⟨true, true⟩
  | .error error => .error error

def read (store : Store) (path : Bytes) : Except SystemError Bytes :=
  match store.find path with
  | .ok (.file _ content) => .ok content
  | .ok (.directory _) => .error .isDirectory
  | .error error => .error error

/-- Where a write to a path would put its file. -/
def target (store : Store) (path : Bytes) : Except SystemError (List Bytes) :=
  match refused? path with
  | some error => .error error
  | none =>
      match (names path).getLast? with
      | none => .error .isDirectory
      | some name =>
          match store.follow (store.base path) (names path).dropLast with
          | .error error => .error error
          | .ok (.file _ _) => .error .notDirectory
          | .ok (.directory names) =>
              if endsInSlash path then .error .isDirectory
              else
                match store.enter names name with
                | .ok (.directory _) => .error .isDirectory
                | .ok (.file _ _) => .ok (names ++ [name])
                | .error error => if error = .nameTooLong then .error error else .ok (names ++ [name])

def put (names : List Bytes) (content : Bytes) :
    List (List Bytes × Bytes) → List (List Bytes × Bytes)
  | [] => [(names, content)]
  | entry :: rest =>
      if entry.1 = names then (names, content) :: rest else entry :: put names content rest

/-- The store with the content in the file of the given names. -/
def replace (store : Store) (names : List Bytes) (content : Bytes) : Store :=
  { store with files := put names content store.files }

def write (store : Store) (path content : Bytes) : Except SystemError Store :=
  (store.target path).map (fun names => store.replace names content)

/-- Adds a directory and the directories that lead to it. -/
def addDirectory (store : Store) (names : List Bytes) : Store :=
  { store with
    directories := store.directories ++
      (List.range names.length).map (fun count => names.take (count + 1)) }

/-- Adds a file and the directories that lead to it. -/
def addFile (store : Store) (names : List Bytes) (content : Bytes) : Store :=
  (store.addDirectory names.dropLast).replace names content

def startingIn (home : List Bytes) : Store :=
  { empty with home := home }.addDirectory home

/-- The path from the working directory to a place below it. -/
def pathFromHome? (store : Store) (names : List Bytes) : Option Bytes :=
  if store.home.isPrefixOf names then some ([slash].intercalate (names.drop store.home.length))
  else none

/-- Every file below the working directory with its path from there. -/
def contents (store : Store) : List (Bytes × Bytes) :=
  store.files.filterMap (fun (names, content) =>
    (store.pathFromHome? names).map (fun path => (path, content)))

@[simp] theorem lookup_put_self (names : List Bytes) (content : Bytes)
    (files : List (List Bytes × Bytes)) : (put names content files).lookup names = some content := by
  induction files with
  | nil => simp [put]
  | cons entry rest ih =>
      rw [put]
      split
      · simp
      · rename_i hne
        have hother : (names == entry.1) = false := by simpa using Ne.symm hne
        rw [List.lookup_cons, hother]
        exact ih

theorem lookup_put_of_ne {names other : List Bytes} (hne : other ≠ names) (content : Bytes)
    (files : List (List Bytes × Bytes)) :
    (put names content files).lookup other = files.lookup other := by
  have hdiffers : (other == names) = false := by simpa using hne
  induction files with
  | nil => simp [put, List.lookup_cons, hdiffers]
  | cons entry rest ih =>
      rw [put]
      split
      · rename_i heq
        rw [List.lookup_cons, List.lookup_cons, heq, hdiffers]
      · rw [List.lookup_cons, List.lookup_cons, ih]

theorem content?_replace_self (store : Store) (names : List Bytes) (content : Bytes) :
    (store.replace names content).content? names = some content :=
  lookup_put_self names content store.files

theorem content?_replace_of_ne (store : Store) {names other : List Bytes} (hne : other ≠ names)
    (content : Bytes) : (store.replace names content).content? other = store.content? other :=
  lookup_put_of_ne hne content store.files

section Replace

variable {store : Store} (names : List Bytes) (content : Bytes)

/-- What a name leads to from a directory, when it is not the directory or its parent. -/
theorem enter_of_name {directory : List Bytes} {name : Bytes} (hhere : name ≠ here)
    (hparent : name ≠ parent) (hshort : name.length ≤ maxName) :
    store.enter directory name =
      if store.isDirectory (directory ++ [name]) then .ok (.directory (directory ++ [name]))
      else
        match store.content? (directory ++ [name]) with
        | some content => .ok (.file (directory ++ [name]) content)
        | none => .error .notFound := by
  rw [enter, if_neg hhere, if_neg hparent, if_neg (Nat.not_lt.mpr hshort)]

/-- A file changes what a name leads to only if it is the file of that name. -/
theorem enter_replace (directory : List Bytes) (name : Bytes) :
    (store.replace names content).enter directory name = store.enter directory name ∨
      names = directory ++ [name] ∧ name.length ≤ maxName ∧
        store.isDirectory (directory ++ [name]) = false ∧
        (store.replace names content).enter directory name =
          .ok (.file (directory ++ [name]) content) := by
  by_cases hhere : name = here
  · left
    rw [enter, enter, if_pos hhere, if_pos hhere]
  by_cases hparent : name = parent
  · left
    rw [enter, enter, if_neg hhere, if_neg hhere, if_pos hparent, if_pos hparent]
  by_cases hshort : name.length ≤ maxName
  · rw [enter_of_name hhere hparent hshort, enter_of_name hhere hparent hshort]
    have hsame : (store.replace names content).isDirectory (directory ++ [name]) =
        store.isDirectory (directory ++ [name]) := rfl
    rw [hsame]
    cases hdirectory : store.isDirectory (directory ++ [name]) with
    | true => exact Or.inl rfl
    | false =>
        by_cases hnames : directory ++ [name] = names
        · right
          subst hnames
          exact ⟨rfl, hshort, rfl, by simp [content?_replace_self]⟩
        · left
          rw [content?_replace_of_ne store hnames]
  · left
    have hlong : maxName < name.length := Nat.lt_of_not_le hshort
    rw [enter, enter, if_neg hhere, if_neg hhere, if_neg hparent, if_neg hparent, if_pos hlong,
      if_pos hlong]

theorem enter_replace_of_directory {directory reached : List Bytes} {name : Bytes}
    (henter : store.enter directory name = .ok (.directory reached)) :
    (store.replace names content).enter directory name = .ok (.directory reached) := by
  rcases enter_replace names content directory name with hsame | ⟨-, hshort, hfree, -⟩
  · rw [hsame, henter]
  · by_cases hhere : name = here
    · rw [enter, if_pos hhere] at henter ⊢
      exact henter
    by_cases hparent : name = parent
    · rw [enter, if_neg hhere, if_pos hparent] at henter ⊢
      exact henter
    rw [enter_of_name hhere hparent hshort, hfree] at henter
    simp only [Bool.false_eq_true, ↓reduceIte] at henter
    split at henter <;> simp at henter

/-- A name that leads to a file still does, whatever the file holds now. -/
theorem enter_replace_of_file {directory reached : List Bytes} {name found : Bytes}
    (henter : store.enter directory name = .ok (.file reached found)) :
    ∃ later, (store.replace names content).enter directory name = .ok (.file reached later) := by
  rcases enter_replace names content directory name with hsame | ⟨-, hshort, hfree, hfile⟩
  · exact ⟨found, hsame.trans henter⟩
  · by_cases hhere : name = here
    · simp [enter, hhere] at henter
    by_cases hparent : name = parent
    · rw [enter, if_neg hhere, if_pos hparent] at henter
      simp at henter
    rw [enter_of_name hhere hparent hshort, hfree] at henter
    simp only [Bool.false_eq_true, ↓reduceIte] at henter
    split at henter
    · simp only [Except.ok.injEq, Node.file.injEq] at henter
      rw [← henter.1]
      exact ⟨content, hfile⟩
    · simp at henter

/-- A path to a directory goes through directories, which a file does not change. -/
theorem follow_replace_of_directory {node : Node} {path reached : List Bytes}
    (hfollow : store.follow node path = .ok (.directory reached)) :
    (store.replace names content).follow node path = .ok (.directory reached) := by
  induction path generalizing node with
  | nil => exact hfollow
  | cons name rest ih =>
      cases node with
      | file => simp [follow] at hfollow
      | directory start =>
          rw [follow] at hfollow ⊢
          cases henter : store.enter start name with
          | error error => simp [henter] at hfollow
          | ok next =>
              rw [henter] at hfollow
              -- The next node is no file, because behind a file there is no directory.
              cases next with
              | directory further =>
                  rw [enter_replace_of_directory names content henter]
                  exact ih hfollow
              | file => cases rest <;> simp [follow] at hfollow

theorem follow_replace_of_file {node : Node} {path reached : List Bytes} {found : Bytes}
    (hfollow : store.follow node path = .ok (.file reached found)) :
    ∃ later, (store.replace names content).follow node path = .ok (.file reached later) := by
  induction path generalizing node with
  | nil => exact ⟨found, hfollow⟩
  | cons name rest ih =>
      cases node with
      | file => simp [follow] at hfollow
      | directory start =>
          rw [follow] at hfollow
          cases henter : store.enter start name with
          | error error => simp [henter] at hfollow
          | ok next =>
              rw [henter] at hfollow
              cases next with
              | directory further =>
                  rw [follow, enter_replace_of_directory names content henter]
                  exact ih hfollow
              | file last held =>
                  -- Nothing follows a file, so the path ends here.
                  cases rest with
                  | cons => simp [follow] at hfollow
                  | nil =>
                      obtain ⟨rfl, -⟩ : last = reached ∧ held = found := by
                        simpa [follow] using hfollow
                      obtain ⟨later, hlater⟩ := enter_replace_of_file names content henter
                      exact ⟨later, by simp [follow, hlater]⟩

theorem follow_append {node middle : Node} {first : List Bytes}
    (hfollow : store.follow node first = .ok middle) (second : List Bytes) :
    store.follow node (first ++ second) = store.follow middle second := by
  induction first generalizing node with
  | nil =>
      obtain rfl : node = middle := by simpa [follow] using hfollow
      rfl
  | cons name rest ih =>
      cases node with
      | file => simp [follow] at hfollow
      | directory start =>
          rw [List.cons_append, follow]
          rw [follow] at hfollow
          cases henter : store.enter start name with
          | error error => simp [henter] at hfollow
          | ok next =>
              rw [henter] at hfollow
              exact ih hfollow

/-- Paths that lead to files lead to the same files. -/
theorem file?_replace {path : Bytes} {found : List Bytes} (hfile : store.file? path = some found) :
    (store.replace names content).file? path = some found := by
  unfold file? find at hfile ⊢
  cases hrefused : refused? path with
  | some error => simp [hrefused] at hfile
  | none =>
      rw [hrefused] at hfile
      cases hfollow : store.follow (store.base path) (Store.names path) with
      | error error => simp [hfollow] at hfile
      | ok node =>
          cases node with
          | directory => simp [hfollow] at hfile
          | file reached held =>
              have hbase : (store.replace names content).base path = store.base path := rfl
              obtain ⟨later, hlater⟩ := follow_replace_of_file names content hfollow
              simp only [hfollow] at hfile
              simp only [hbase, hlater]
              cases hslash : endsInSlash path with
              | true => simp [hslash] at hfile
              | false => simpa [hslash] using hfile

end Replace

/-- What it takes for a path to be written to: it leads to a directory, and its last name is not that of
a directory. -/
structure Accepts (store : Store) (path : Bytes) (directory : List Bytes) (name : Bytes) : Prop where
  searched : refused? path = none
  last : (names path).getLast? = some name
  reached : store.follow (store.base path) (names path).dropLast = .ok (.directory directory)
  unslashed : endsInSlash path = false
  free : ∀ further, store.enter directory name ≠ .ok (.directory further)
  short : store.enter directory name ≠ .error .nameTooLong

theorem exists_accepts_of_target {store : Store} {path : Bytes} {reached : List Bytes}
    (htarget : store.target path = .ok reached) :
    ∃ directory name, store.Accepts path directory name ∧ reached = directory ++ [name] := by
  unfold target at htarget
  split at htarget
  · simp at htarget
  · rename_i hrefused
    split at htarget
    · simp at htarget
    · rename_i name hlast
      split at htarget
      · simp at htarget
      · simp at htarget
      · rename_i directory hfollow
        split at htarget
        · simp at htarget
        · rename_i hslash
          have hunslashed : endsInSlash path = false := by simpa using hslash
          cases henter : store.enter directory name with
          | ok node =>
              cases node with
              | directory further => simp [henter] at htarget
              | file other held =>
                  refine ⟨directory, name, ⟨hrefused, hlast, hfollow, hunslashed, ?_, ?_⟩, ?_⟩
                  · simp [henter]
                  · simp [henter]
                  · simpa [henter] using htarget.symm
          | error error =>
              by_cases hlong : error = .nameTooLong
              · simp [henter, hlong] at htarget
              · refine ⟨directory, name, ⟨hrefused, hlast, hfollow, hunslashed, ?_, ?_⟩, ?_⟩
                · simp [henter]
                · simpa [henter] using hlong
                · simpa [henter, hlong] using htarget.symm

theorem Accepts.target_eq {store : Store} {path : Bytes} {directory : List Bytes} {name : Bytes}
    (haccepts : store.Accepts path directory name) :
    store.target path = .ok (directory ++ [name]) := by
  simp only [target, haccepts.searched, haccepts.last, haccepts.reached, haccepts.unslashed,
    Bool.false_eq_true, ↓reduceIte]
  cases henter : store.enter directory name with
  | ok node =>
      cases node with
      | directory further => exact absurd henter (haccepts.free further)
      | file names held => rfl
  | error error =>
      have hshort : error ≠ .nameTooLong := fun hlong => haccepts.short (henter.trans (by rw [hlong]))
      simp only [hshort, ↓reduceIte]

/-- A path that can be written to stays so when a file is written. -/
theorem Accepts.replace {store : Store} {path : Bytes} {directory : List Bytes} {name : Bytes}
    (haccepts : store.Accepts path directory name) (names : List Bytes) (content : Bytes) :
    (store.replace names content).Accepts path directory name where
  searched := haccepts.searched
  last := haccepts.last
  reached := follow_replace_of_directory names content haccepts.reached
  unslashed := haccepts.unslashed
  free := by
    intro further henter
    rcases enter_replace names content directory name with hsame | ⟨-, -, -, hfile⟩
    · exact haccepts.free further (hsame ▸ henter)
    · simp [hfile] at henter
  short := by
    intro henter
    rcases enter_replace names content directory name with hsame | ⟨-, -, -, hfile⟩
    · exact haccepts.short (hsame ▸ henter)
    · simp [hfile] at henter

/-- The file that was put in a directory is found there. -/
theorem Accepts.enter_replace_self {store : Store} {path : Bytes} {directory : List Bytes}
    {name : Bytes} (haccepts : store.Accepts path directory name) (content : Bytes) :
    (store.replace (directory ++ [name]) content).enter directory name =
      .ok (.file (directory ++ [name]) content) := by
  have hhere : name ≠ here := by
    rintro rfl
    exact haccepts.free directory (by rw [enter, if_pos rfl])
  have hparent : name ≠ parent := by
    rintro rfl
    exact haccepts.free directory.dropLast (by rw [enter, if_neg hhere, if_pos rfl])
  have hshort : name.length ≤ maxName := by
    refine Nat.le_of_not_lt fun hlong => haccepts.short ?_
    rw [enter, if_neg hhere, if_neg hparent, if_pos hlong]
  have hfree : store.isDirectory (directory ++ [name]) = false := by
    refine Bool.eq_false_iff.mpr fun hdirectory => haccepts.free (directory ++ [name]) ?_
    rw [enter_of_name hhere hparent hshort, if_pos hdirectory]
  have hsame : (store.replace (directory ++ [name]) content).isDirectory (directory ++ [name]) =
      store.isDirectory (directory ++ [name]) := rfl
  rw [enter_of_name hhere hparent hshort, hsame, hfree, content?_replace_self]
  rfl

theorem find_replace_of_target {store : Store} {path : Bytes} {reached : List Bytes}
    (htarget : store.target path = .ok reached) (content : Bytes) :
    (store.replace reached content).find path = .ok (.file reached content) := by
  obtain ⟨directory, name, haccepts, rfl⟩ := exists_accepts_of_target htarget
  have hsplit : names path = (names path).dropLast ++ [name] := by
    obtain ⟨front, hfront⟩ := List.getLast?_eq_some_iff.mp haccepts.last
    rw [hfront, List.dropLast_concat]
  have hbase : (store.replace (directory ++ [name]) content).base path = store.base path := rfl
  have hfollow : (store.replace (directory ++ [name]) content).follow
      ((store.replace (directory ++ [name]) content).base path) (names path) =
        .ok (.file (directory ++ [name]) content) := by
    rw [hbase, hsplit, follow_append (follow_replace_of_directory _ _ haccepts.reached), follow,
      haccepts.enter_replace_self]
    rfl
  simp [find, haccepts.searched, hfollow, haccepts.unslashed]

instance : FileTree Store where
  File := List Bytes
  Frame := List Bytes × List (List Bytes)
  file? := file?
  content? := content?
  frame store := (store.home, store.directories)

theorem updated_replace {store : Store} {path : Bytes} {reached : List Bytes}
    (htarget : store.target path = .ok reached) (content : Bytes) :
    FileTree.Updated store (store.replace reached content) path content where
  content := by
    refine ⟨reached, ?_, content?_replace_self store reached content, ?_⟩
    · change (store.replace reached content).file? path = some reached
      rw [file?, find_replace_of_target htarget]
    · intro other hne
      exact content?_replace_of_ne store hne content
  file := fun _ _ hfile => file?_replace reached content hfile
  frame := rfl

instance : FileSystem Store where
  status := status
  read := read
  write := write
  updated_of_write := by
    intro store later path content hwrite
    cases htarget : store.target path with
    | error error => simp [write, htarget, Except.map] at hwrite
    | ok reached =>
        obtain rfl : store.replace reached content = later := by
          simpa [write, htarget, Except.map] using hwrite
        exact updated_replace htarget content

end Store

end TwoPass
