import ArchiveTraversal.Text.Utf8

/-!
Paths as the file system takes them: bytes, with a separator between names. Taking a path apart
loses empty segments; putting names together writes one separator between two of them. Nothing
here asks whether a path exists.
-/

namespace ArchiveTraversal

abbrev Name := Bytes
abbrev Path := Bytes

namespace Path

def separator : UInt8 := 0x2F
def here : Name := [0x2E]
def up : Name := [0x2E, 0x2E]

/-- The pieces between separators, empty ones included; there is always at least one. -/
def split : Path → List Name
  | [] => [[]]
  | byte :: rest =>
      if byte = separator then [] :: split rest
      else match split rest with
        | [] => [[byte]]
        | first :: others => (byte :: first) :: others

def glue : List Name → Path
  | [] => []
  | [name] => name
  | name :: rest => name ++ separator :: glue rest

theorem split_ne_nil (path : Path) : split path ≠ [] := by
  cases path with
  | nil => simp [split]
  | cons byte rest =>
      simp only [split]
      split
      · simp
      · split <;> simp

theorem glue_split (path : Path) : glue (split path) = path := by
  induction path with
  | nil => rfl
  | cons byte rest ih =>
      simp only [split]
      cases pieces : split rest with
      | nil => exact absurd pieces (split_ne_nil rest)
      | cons first others =>
          rw [pieces] at ih
          split
          · rename_i same
            simp [glue, ih, same]
          · cases others <;> simp_all [glue]

theorem separator_not_mem_split {path : Path} {name : Name} (piece : name ∈ split path) :
    separator ∉ name := by
  induction path generalizing name with
  | nil => simp_all [split]
  | cons byte rest ih =>
      simp only [split] at piece
      split at piece
      · rcases List.mem_cons.1 piece with empty | later
        · simp [empty]
        · exact ih later
      · rename_i apart
        cases pieces : split rest with
        | nil => exact absurd pieces (split_ne_nil rest)
        | cons first others =>
            simp only [pieces] at piece ih
            rcases List.mem_cons.1 piece with extended | later
            · subst extended
              have kept := ih List.mem_cons_self
              simp [kept, Ne.symm apart]
            · exact ih (List.mem_cons_of_mem _ later)

theorem split_append_separator (name : Name) (rest : Path) (whole : separator ∉ name) :
    split (name ++ separator :: rest) = name :: split rest := by
  induction name with
  | nil => simp [split]
  | cons byte more ih =>
      have apart : byte ≠ separator := fun same => whole (by simp [same])
      have inner : separator ∉ more := fun member => whole (List.mem_cons_of_mem _ member)
      simp [split, apart, ih inner]

theorem split_name (name : Name) (whole : separator ∉ name) : split name = [name] := by
  induction name with
  | nil => rfl
  | cons byte more ih =>
      have apart : byte ≠ separator := fun same => whole (by simp [same])
      have inner : separator ∉ more := fun member => whole (List.mem_cons_of_mem _ member)
      simp [split, apart, ih inner]

theorem split_glue (names : List Name) (some : names ≠ [])
    (whole : ∀ name ∈ names, separator ∉ name) : split (glue names) = names := by
  induction names with
  | nil => exact absurd rfl some
  | cons name rest ih =>
      cases rest with
      | nil => exact split_name name (whole name List.mem_cons_self)
      | cons next more =>
          have later := ih (by simp) fun other member => whole other (List.mem_cons_of_mem _ member)
          rw [glue, split_append_separator _ _ (whole name List.mem_cons_self), later]
          simp

/-- The names of a path in order, with what stands for the current directory left out. -/
def names (path : Path) : List Name :=
  (split path).filter fun name => name ≠ [] ∧ name ≠ here

def segments (path : Path) : List Name := (split path).filter (· ≠ [])

def isAbsolute (path : Path) : Bool := path.head? = some separator

def endsInSeparator (path : Path) : Bool := path.getLast? = some separator

def display (path : Path) : String := Text.Utf8.decodeLossy path

def join (base child : Path) : Path :=
  if isAbsolute child then child
  else if base = [] ∨ endsInSeparator base then base ++ child
  else base ++ separator :: child

def leadingTo (base : Path) : List Name → List Path
  | [] => []
  | [_] => []
  | name :: next :: below => join base name :: leadingTo (join base name) (next :: below)

/-- Segments that add nothing after the first one. -/
def isFiller (name : Name) : Bool := name = [] ∨ name = here

/-- The path less its last name. The root and the empty path have no parent. -/
def parent? (path : Path) : Option Path :=
  match split path with
  | [] => none
  | first :: others =>
      match others.reverse.dropWhile isFiller with
      | [] => if first = [] then none else some []
      | _ :: above =>
          let kept := (above.dropWhile isFiller).reverse
          if first = [] ∧ kept = [] then some [separator] else some (glue (first :: kept))

def ancestorsWithin : Nat → Path → List Path
  | 0, _ => []
  | bound + 1, path =>
      if path = [] then []
      else match parent? path with
        | none => [path]
        | some above => path :: ancestorsWithin bound above

def ancestors (path : Path) : List Path := ancestorsWithin path.length path

inductive Component where
  | root
  | here
  | up
  | name (name : Name)
  deriving DecidableEq, Repr

namespace Component

def ofPiece? (piece : Name) : Option Component :=
  if isFiller piece then none
  else if piece = Path.up then some .up
  else some (.name piece)

/-- What the first piece stands for. If it is empty and others follow, the path starts at the root;
and the current directory counts here, and nowhere else. -/
def ofFirst? (first : Name) (others : List Name) : Option Component :=
  if first = [] ∧ others ≠ [] then some .root
  else if first = Path.here then some .here
  else ofPiece? first

end Component

/-- The steps of a path in order. Repeated and trailing separators make none. -/
def components (path : Path) : List Component :=
  match split path with
  | [] => []
  | first :: others =>
      (Component.ofFirst? first others).toList ++ others.filterMap Component.ofPiece?

end Path

end ArchiveTraversal
