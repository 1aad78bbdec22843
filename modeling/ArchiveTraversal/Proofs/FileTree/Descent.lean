import ArchiveTraversal.FileTree.Change
import ArchiveTraversal.FileTree.View
import ArchiveTraversal.Proofs.Path

/-!
Ways that a walk takes through directories. A way leads from one directory to another along names
that all stand for directories, links followed; it uses up some of the links that the walk may
follow. A walk over more names than the way has goes on where the way ends, and a walk that gets
anywhere at all has gone such a way to its last name.
-/

namespace ArchiveTraversal

theorem Node.find?_append (node : Node) (above below : Location) :
    node.find? (above ++ below) = (node.find? above).bind (·.find? below) := by
  induction above generalizing node with
  | nil => simp [find?]
  | cons name rest ih =>
      cases node with
      | file content => simp [find?]
      | link target => simp [find?]
      | directory entries =>
          simp only [List.cons_append, find?]
          cases entries.lookup name with
          | none => rfl
          | some inner => exact ih inner

namespace FileTree

variable {tree : FileTree}

theorem find?_append (tree : FileTree) (above below : Location) :
    tree.find? (above ++ below) = (tree.find? above).bind (·.find? below) :=
  tree.root.find?_append above below

/-- What a walk takes for the entries of a directory is what the tree has there. -/
def Standing.Stands (tree : FileTree) (standing : Standing) : Prop :=
  tree.find? standing.trail.reverse = some (.directory standing.entries)

def Standing.location (standing : Standing) : Location := standing.trail.reverse

theorem Standing.Stands.lookup {standing : Standing} (stands : standing.Stands tree)
    (name : Name) : standing.entries.lookup name = tree.find? (standing.location ++ [name]) := by
  rw [find?_append, location, stands]
  simp only [Option.bind_some, Node.find?]
  cases standing.entries.lookup name <;> rfl

theorem Standing.stands_atRoot (tree : FileTree) : (Standing.atRoot tree).Stands tree := rfl

theorem Standing.location_enter (standing : Standing) (name : Name) (entries : Entries) :
    (standing.enter name entries).location = standing.location ++ [name] := by
  simp [enter, location]

theorem Standing.Stands.enter {standing : Standing} (stands : standing.Stands tree) {name : Name}
    {entries : Entries} (found : standing.entries.lookup name = some (.directory entries)) :
    (standing.enter name entries).Stands tree := by
  have there := stands.lookup name
  rw [found, ← location_enter standing name entries] at there
  exact there.symm

theorem Standing.stands_leave (tree : FileTree) (standing : Standing) :
    (standing.leave tree).Stands tree := by
  unfold leave
  split
  · assumption
  · exact stands_atRoot tree

theorem Standing.stands_start {path : Path} {standing : Standing}
    (starts : Standing.start tree path = some standing) : standing.Stands tree := by
  unfold start at starts
  split at starts
  · cases starts
    exact stands_atRoot tree
  · split at starts
    · rename_i entries found
      cases starts
      simpa [Stands] using found
    · cases starts

def onward (tree : FileTree) (purpose : Purpose) :
    Nat → Standing → Path → List Name → Bool → Except IoError Place
  | 0, _, _, _, _ => .error (.system SystemError.tooManyLinks)
  | links + 1, standing, target, rest, insists =>
      walk tree purpose links (if target.isAbsolute then .atRoot tree else standing)
        (target.segments ++ rest) (insists || (rest = [] && target.endsInSeparator))

theorem walk_eq_walkNames (tree : FileTree) (purpose : Purpose) (links : Nat) :
    walk tree purpose links = walkNames tree purpose (onward tree purpose links) := by
  cases links <;> rfl

theorem walk_nil (purpose : Purpose) (links : Nat) (standing : Standing) (insists : Bool) :
    walk tree purpose links standing [] insists =
      .ok ⟨standing.location, some (.directory standing.entries), insists⟩ := by
  rw [walk_eq_walkNames]
  rfl

theorem walk_here (purpose : Purpose) (links : Nat) (standing : Standing) (rest : List Name)
    (insists : Bool) :
    walk tree purpose links standing (Path.here :: rest) insists =
      walk tree purpose links standing rest insists := by
  rw [walk_eq_walkNames]
  simp [walkNames]

theorem walk_up (purpose : Purpose) (links : Nat) (standing : Standing) (rest : List Name)
    (insists : Bool) :
    walk tree purpose links standing (Path.up :: rest) insists =
      walk tree purpose links (standing.leave tree) rest insists := by
  rw [walk_eq_walkNames]
  simp [walkNames, Path.up, Path.here]

theorem walk_name (purpose : Purpose) (links : Nat) (standing : Standing) {name : Name}
    (notHere : name ≠ Path.here) (notUp : name ≠ Path.up) (rest : List Name) (insists : Bool) :
    walk tree purpose links standing (name :: rest) insists =
      if purpose = .create ∧ rest = [] ∧ insists then .error (.system SystemError.isDirectory)
      else if name.length > longestName then .error (.system SystemError.nameTooLong)
      else match standing.entries.lookup name with
        | some (.directory entries) =>
            walk tree purpose links (standing.enter name entries) rest insists
        | some (.file content) =>
            if rest = [] then .ok (standing.place name (some (.file content)) insists)
            else .error (.system SystemError.notDirectory)
        | some (.link target) =>
            if purpose = .takeLink ∧ rest = [] ∧ !insists then
              .ok (standing.place name (some (.link target)) insists)
            else onward tree purpose links standing target rest insists
        | none =>
            if rest = [] then .ok (standing.place name none insists)
            else .error (.system SystemError.notFound) := by
  rw [walk_eq_walkNames, walkNames]
  exact (if_neg notHere).trans (if_neg notUp)

/-- A way along names, from a directory to another, and the links left before and after it. -/
inductive Leads (tree : FileTree) : Nat → Standing → List Name → Nat → Standing → Prop where
  | arrived {links : Nat} {standing : Standing} : Leads tree links standing [] links standing
  | stay {links left : Nat} {standing final : Standing} {rest : List Name}
      (onwards : Leads tree links standing rest left final) :
      Leads tree links standing (Path.here :: rest) left final
  | leave {links left : Nat} {standing final : Standing} {rest : List Name}
      (onwards : Leads tree links (standing.leave tree) rest left final) :
      Leads tree links standing (Path.up :: rest) left final
  | enter {links left : Nat} {standing final : Standing} {name : Name} {rest : List Name}
      {entries : Entries} (notHere : name ≠ Path.here) (notUp : name ≠ Path.up)
      (short : name.length ≤ longestName)
      (found : standing.entries.lookup name = some (.directory entries))
      (onwards : Leads tree links (standing.enter name entries) rest left final) :
      Leads tree links standing (name :: rest) left final
  | follow {links left : Nat} {standing final : Standing} {name : Name} {rest : List Name}
      {target : Path} (notHere : name ≠ Path.here) (notUp : name ≠ Path.up)
      (short : name.length ≤ longestName)
      (found : standing.entries.lookup name = some (.link target))
      (onwards : Leads tree links (if target.isAbsolute then .atRoot tree else standing)
        (target.segments ++ rest) left final) :
      Leads tree (links + 1) standing (name :: rest) left final

theorem Leads.stands {links left : Nat} {standing final : Standing} {names : List Name}
    (leads : Leads tree links standing names left final) (stands : standing.Stands tree) :
    final.Stands tree := by
  induction leads with
  | arrived => exact stands
  | stay _ ih => exact ih stands
  | leave _ ih => exact ih (Standing.stands_leave ..)
  | enter _ _ _ found _ ih => exact ih (stands.enter found)
  | follow _ _ _ _ _ ih =>
      apply ih
      split
      · exact Standing.stands_atRoot tree
      · exact stands

theorem Leads.walk_append {links left : Nat} {standing final : Standing} {names more : List Name}
    (leads : Leads tree links standing names left final) (someMore : more ≠ [])
    (purpose : Purpose) (insists : Bool) :
    walk tree purpose links standing (names ++ more) insists =
      walk tree purpose left final more insists := by
  induction leads with
  | arrived => rfl
  | stay _ ih => rw [List.cons_append, walk_here, ih]
  | leave _ ih => rw [List.cons_append, walk_up, ih]
  | enter notHere notUp short found _ ih =>
      rw [List.cons_append, walk_name _ _ _ notHere notUp, found, ← ih]
      simp [someMore, Nat.not_lt.mpr short]
  | follow notHere notUp short found _ ih =>
      rw [List.cons_append, walk_name _ _ _ notHere notUp, found, ← ih]
      simp [someMore, Nat.not_lt.mpr short, onward]

/-- A walk that gets anywhere along some names and one more has gone a way along the names. -/
theorem leads_of_walk {purpose : Purpose} {links : Nat} {standing : Standing}
    {names more : List Name} {insists : Bool} {place : Place} (someMore : more ≠ [])
    (gets : walk tree purpose links standing (names ++ more) insists = .ok place) :
    ∃ left final, Leads tree links standing names left final := by
  -- Following a link uses one up and may add names, so the names shrink only for fixed links.
  induction links using Nat.strongRecOn generalizing standing names insists with
  | ind links fewer =>
      induction names generalizing standing with
      | nil => exact ⟨_, _, .arrived⟩
      | cons name rest ih =>
          by_cases isHere : name = Path.here
          · subst isHere
            rw [List.cons_append, walk_here] at gets
            obtain ⟨left, final, onwards⟩ := ih gets
            exact ⟨left, final, .stay onwards⟩
          · by_cases isUp : name = Path.up
            · subst isUp
              rw [List.cons_append, walk_up] at gets
              obtain ⟨left, final, onwards⟩ := ih gets
              exact ⟨left, final, .leave onwards⟩
            · rw [List.cons_append, walk_name _ _ _ isHere isUp] at gets
              have notLast : rest ++ more ≠ [] := by simp [someMore]
              simp only [notLast, false_and, and_false, ↓reduceIte] at gets
              split at gets
              · cases gets
              · rename_i short
                have short := Nat.not_lt.mp short
                cases found : standing.entries.lookup name with
                | none => simp [found] at gets
                | some node =>
                    cases node with
                    | file content => simp [found] at gets
                    | directory entries =>
                        simp only [found] at gets
                        obtain ⟨left, final, onwards⟩ := ih gets
                        exact ⟨left, final, .enter isHere isUp short found onwards⟩
                    | link target =>
                        simp only [found] at gets
                        cases links with
                        | zero => cases gets
                        | succ links =>
                            rw [onward, ← List.append_assoc] at gets
                            obtain ⟨left, final, onwards⟩ :=
                              fewer links (Nat.lt_succ_self links) gets
                            exact ⟨left, final, .follow isHere isUp short found onwards⟩

theorem Leads.append {links middle left : Nat} {standing between final : Standing}
    {names more : List Name} (leads : Leads tree links standing names middle between)
    (further : Leads tree middle between more left final) :
    Leads tree links standing (names ++ more) left final := by
  induction leads with
  | arrived => exact further
  | stay _ ih => exact .stay (ih further)
  | leave _ ih => exact .leave (ih further)
  | enter notHere notUp short found _ ih => exact .enter notHere notUp short found (ih further)
  | follow notHere notUp short found _ ih =>
      apply Leads.follow notHere notUp short found
      simpa using ih further

theorem Leads.parts {links left : Nat} {standing final : Standing} {names more : List Name}
    (leads : Leads tree links standing (names ++ more) left final) :
    ∃ middle between, Leads tree links standing names middle between ∧
      Leads tree middle between more left final := by
  -- A link puts names before those to come, so the induction is for all ways to cut the names.
  generalize whole : names ++ more = all at leads
  induction leads generalizing names with
  | arrived =>
      obtain ⟨rfl, rfl⟩ := List.append_eq_nil_iff.mp whole
      exact ⟨_, _, .arrived, .arrived⟩
  | stay onwards ih =>
      cases names with
      | nil =>
          have all : more = _ := whole
          subst all
          exact ⟨_, _, .arrived, .stay onwards⟩
      | cons name rest =>
          cases whole
          obtain ⟨middle, between, first, second⟩ := ih rfl
          exact ⟨middle, between, .stay first, second⟩
  | leave onwards ih =>
      cases names with
      | nil =>
          have all : more = _ := whole
          subst all
          exact ⟨_, _, .arrived, .leave onwards⟩
      | cons name rest =>
          cases whole
          obtain ⟨middle, between, first, second⟩ := ih rfl
          exact ⟨middle, between, .leave first, second⟩
  | enter notHere notUp short found onwards ih =>
      cases names with
      | nil =>
          have all : more = _ := whole
          subst all
          exact ⟨_, _, .arrived, .enter notHere notUp short found onwards⟩
      | cons name rest =>
          cases whole
          obtain ⟨middle, between, first, second⟩ := ih rfl
          exact ⟨middle, between, .enter notHere notUp short found first, second⟩
  | follow notHere notUp short found onwards ih =>
      cases names with
      | nil =>
          have all : more = _ := whole
          subst all
          exact ⟨_, _, .arrived, .follow notHere notUp short found onwards⟩
      | cons name rest =>
          cases whole
          obtain ⟨middle, between, first, second⟩ := ih (List.append_assoc ..)
          exact ⟨middle, between, .follow notHere notUp short found first, second⟩

/-- Where a way leads to a directory, no walk of the same names gets to anything else, however many
links it may follow. -/
theorem Leads.agrees {links fewer left : Nat} {standing final : Standing} {names : List Name}
    {insists : Bool} {place : Place} (leads : Leads tree links standing names left final)
    (gets : walk tree .inspect fewer standing names insists = .ok place) :
    place.location = final.location ∧ place.node = some (.directory final.entries) := by
  induction leads generalizing fewer insists with
  | arrived =>
      rw [walk_nil] at gets
      cases gets
      exact ⟨rfl, rfl⟩
  | stay _ ih =>
      rw [walk_here] at gets
      exact ih gets
  | leave _ ih =>
      rw [walk_up] at gets
      exact ih gets
  | enter notHere notUp short found _ ih =>
      rw [walk_name _ _ _ notHere notUp, found] at gets
      simp only [reduceCtorEq, false_and, Nat.not_lt.mpr short, ↓reduceIte] at gets
      exact ih gets
  | follow notHere notUp short found _ ih =>
      rw [walk_name _ _ _ notHere notUp, found] at gets
      simp only [reduceCtorEq, false_and, Nat.not_lt.mpr short, ↓reduceIte] at gets
      cases fewer with
      | zero => cases gets
      | succ prior => exact ih gets

theorem Leads.left_le {links left : Nat} {standing final : Standing} {names : List Name}
    (leads : Leads tree links standing names left final) : left ≤ links := by
  induction leads with
  | arrived => exact Nat.le_refl _
  | stay _ ih => exact ih
  | leave _ ih => exact ih
  | enter _ _ _ _ _ ih => exact ih
  | follow _ _ _ _ _ ih => exact Nat.le_succ_of_le ih

theorem Leads.walk_inspect {links left : Nat} {standing final : Standing} {names : List Name}
    (leads : Leads tree links standing names left final) (insists : Bool) :
    ∃ insisted, walk tree .inspect links standing names insists =
      .ok ⟨final.location, some (.directory final.entries), insisted⟩ := by
  induction leads generalizing insists with
  | arrived => exact ⟨insists, walk_nil ..⟩
  | stay _ ih => rw [walk_here]; exact ih insists
  | leave _ ih => rw [walk_up]; exact ih insists
  | enter notHere notUp short found _ ih =>
      rw [walk_name _ _ _ notHere notUp, found]
      simpa [Nat.not_lt.mpr short] using ih insists
  | follow notHere notUp short found _ ih =>
      rw [walk_name _ _ _ notHere notUp, found]
      simpa [Nat.not_lt.mpr short, onward] using ih _

/-- Where a walk can end: in a directory that its names lead to, or else at a name in a directory,
where nothing stands, or a file, or a link that was to be taken itself. -/
inductive Arrives (tree : FileTree) (purpose : Purpose) (links : Nat) (standing : Standing)
    (names : List Name) (place : Place) : Prop where
  | directory {left : Nat} {final : Standing} (leads : Leads tree links standing names left final)
      (there : place.location = final.location)
      (node : place.node = some (.directory final.entries))
  | entry {between : Standing} {name : Name} (stands : between.Stands tree)
      (there : place.location = between.location ++ [name])
      (node : place.node = between.entries.lookup name)
      (leaf : ∀ entries, place.node ≠ some (.directory entries))
      (taken : ∀ target, place.node = some (.link target) → purpose = .takeLink)

theorem walk_arrives {purpose : Purpose} {links : Nat} {standing : Standing} {names : List Name}
    {insists : Bool} {place : Place} (stands : standing.Stands tree)
    (gets : walk tree purpose links standing names insists = .ok place) :
    Arrives tree purpose links standing names place := by
  induction links using Nat.strongRecOn generalizing standing names insists with
  | ind links fewer =>
      rcases List.eq_nil_or_concat names with none | ⟨way, last, ends⟩
      · subst none
        rw [walk_nil] at gets
        cases gets
        exact .directory .arrived rfl rfl
      · rw [List.concat_eq_append] at ends
        subst ends
        -- Before the last name there are only directories; the last name decides where it ends.
        obtain ⟨left, between, leads⟩ := leads_of_walk (by simp) gets
        have fewerLeft := leads.left_le
        have standsBetween := leads.stands stands
        rw [leads.walk_append (by simp)] at gets
        by_cases isHere : last = Path.here
        · subst isHere
          rw [walk_here, walk_nil] at gets
          cases gets
          exact .directory (leads.append (.stay .arrived)) rfl rfl
        · by_cases isUp : last = Path.up
          · subst isUp
            rw [walk_up, walk_nil] at gets
            cases gets
            exact .directory (leads.append (.leave .arrived)) rfl rfl
          · rw [walk_name _ _ _ isHere isUp] at gets
            split at gets
            · cases gets
            · split at gets
              · cases gets
              · rename_i short
                have short := Nat.not_lt.mp short
                cases found : between.entries.lookup last with
                | none =>
                    simp only [found, ↓reduceIte] at gets
                    cases gets
                    exact .entry standsBetween (by simp [Standing.place, Standing.location])
                      found.symm (by simp [Standing.place]) (by simp [Standing.place])
                | some node =>
                    cases node with
                    | file content =>
                        simp only [found, ↓reduceIte] at gets
                        cases gets
                        exact .entry standsBetween (by simp [Standing.place, Standing.location])
                          found.symm (by simp [Standing.place]) (by simp [Standing.place])
                    | directory inner =>
                        simp only [found, walk_nil] at gets
                        cases gets
                        exact .directory (leads.append (.enter isHere isUp short found .arrived))
                          rfl rfl
                    | link target =>
                        simp only [found] at gets
                        split at gets
                        · rename_i takes
                          cases gets
                          exact .entry standsBetween (by simp [Standing.place, Standing.location])
                            found.symm (by simp [Standing.place]) fun _ _ => takes.1
                        -- The link is followed, so the walk goes on from there with one link less.
                        · cases left with
                          | zero => cases gets
                          | succ prior =>
                              rw [onward] at gets
                              have standsThere : (if target.isAbsolute then .atRoot tree
                                  else between : Standing).Stands tree := by
                                split
                                · exact Standing.stands_atRoot tree
                                · exact standsBetween
                              cases fewer prior (Nat.lt_of_succ_le fewerLeft) standsThere gets with
                              | directory onwards there node =>
                                  exact .directory
                                    (leads.append (.follow isHere isUp short found onwards))
                                    there node
                              | entry stands there node leaf taken =>
                                  exact .entry stands there node leaf taken

theorem walk_insists {purpose : Purpose} {links : Nat} {standing : Standing} {names : List Name}
    {place : Place} (gets : walk tree purpose links standing names true = .ok place) :
    place.insistsOnDirectory = true := by
  -- On the links that may still be followed, and for so many links on the names.
  induction links using Nat.strongRecOn generalizing standing names with
  | ind links fewer =>
      induction names generalizing standing with
      | nil =>
          rw [walk_nil] at gets
          cases gets
          rfl
      | cons name rest ih =>
          by_cases isHere : name = Path.here
          · subst isHere
            rw [walk_here] at gets
            exact ih gets
          by_cases isUp : name = Path.up
          · subst isUp
            rw [walk_up] at gets
            exact ih gets
          rw [walk_name _ _ _ isHere isUp] at gets
          split at gets
          · cases gets
          split at gets
          · cases gets
          cases found : standing.entries.lookup name with
          | none =>
              simp only [found] at gets
              split at gets
              · cases gets
                rfl
              · cases gets
          | some node =>
              cases node with
              | file content =>
                  simp only [found] at gets
                  split at gets
                  · cases gets
                    rfl
                  · cases gets
              | directory entries =>
                  simp only [found] at gets
                  exact ih gets
              | link target =>
                  simp only [found, Bool.not_true, Bool.false_eq_true, and_false,
                    ↓reduceIte] at gets
                  cases links with
                  | zero => cases gets
                  | succ prior => exact fewer prior (Nat.lt_succ_self prior) gets

theorem Leads.through_heres {links left : Nat} {standing final : Standing}
    {fillers names : List Name} (leads : Leads tree links standing names left final)
    (heres : ∀ name ∈ fillers, name = Path.here) :
    Leads tree links standing (fillers ++ names) left final := by
  induction fillers with
  | nil => exact leads
  | cons name rest ih =>
      rw [heres name List.mem_cons_self]
      exact .stay (ih fun other member => heres other (List.mem_cons_of_mem _ member))

theorem Leads.congr {links left : Nat} {standing final : Standing} {names others : List Name}
    (leads : Leads tree links standing names left final)
    (same : names.filter (· ≠ Path.here) = others.filter (· ≠ Path.here)) :
    Leads tree links standing others left final := by
  -- Other names can only have more or fewer names of the current directory between steps.
  induction leads generalizing others with
  | @arrived links standing =>
      have heres := List.filter_eq_nil_iff.mp same.symm
      have way : Leads tree links standing (others ++ []) links standing :=
        Leads.arrived.through_heres fun name member => by simpa using heres name member
      simpa using way
  | stay _ ih => exact ih (by simpa using same)
  | leave _ ih =>
      have kept : Path.up ≠ Path.here := by decide
      rw [List.filter_cons_of_pos (by simpa using kept)] at same
      obtain ⟨fillers, rest, rfl, heres, _, same⟩ := List.filter_eq_cons_iff.mp same.symm
      exact (Leads.leave (ih same.symm)).through_heres fun name member => by
        simpa using heres name member
  | enter notHere notUp short found _ ih =>
      rw [List.filter_cons_of_pos (by simpa using notHere)] at same
      obtain ⟨fillers, rest, rfl, heres, _, same⟩ := List.filter_eq_cons_iff.mp same.symm
      exact (Leads.enter notHere notUp short found (ih same.symm)).through_heres
        fun name member => by simpa using heres name member
  | @follow _ _ _ _ _ _ target notHere notUp short found _ ih =>
      rw [List.filter_cons_of_pos (by simpa using notHere)] at same
      obtain ⟨fillers, rest, rfl, heres, _, same⟩ := List.filter_eq_cons_iff.mp same.symm
      have onwards := @ih (target.segments ++ rest)
        (by rw [List.filter_append, List.filter_append, same])
      exact (Leads.follow notHere notUp short found onwards).through_heres
        fun name member => by simpa using heres name member

/-- What stands for the current directory makes no difference before other names. -/
theorem walk_filter {more : List Name} (someMore : more ≠ []) (purpose : Purpose) (links : Nat)
    (standing : Standing) (names : List Name) (insists : Bool) :
    walk tree purpose links standing (names ++ more) insists =
      walk tree purpose links standing (names.filter (· ≠ Path.here) ++ more) insists := by
  -- As the walk goes: on the links left, and for as many links on the names.
  induction links using Nat.strongRecOn generalizing standing names insists with
  | ind links fewer =>
      induction names generalizing standing with
      | nil => rfl
      | cons name rest ih =>
          by_cases isHere : name = Path.here
          · subst isHere
            rw [List.cons_append, walk_here, ih, List.filter_cons_of_neg (by simp)]
          · rw [List.filter_cons_of_pos (by simpa using isHere), List.cons_append, List.cons_append]
            by_cases isUp : name = Path.up
            · subst isUp
              rw [walk_up, walk_up, ih]
            · have notLast : rest ++ more ≠ [] := by simp [someMore]
              have notLastEither : rest.filter (· ≠ Path.here) ++ more ≠ [] := by simp [someMore]
              rw [walk_name _ _ _ isHere isUp, walk_name _ _ _ isHere isUp]
              simp only [notLast, notLastEither, false_and, and_false, ↓reduceIte]
              cases found : standing.entries.lookup name with
              | none => rfl
              | some node =>
                  cases node with
                  | file content => rfl
                  | directory entries => simp only [ih]
                  | link target =>
                      cases links with
                      | zero => rfl
                      | succ links =>
                          simp only [onward, notLast, notLastEither, decide_false, Bool.false_and,
                            Bool.or_false]
                          rw [← List.append_assoc, ← List.append_assoc,
                            fewer links (Nat.lt_succ_self links),
                            fewer links (Nat.lt_succ_self links) _ (_ ++ rest.filter _)]
                          simp [List.filter_append, List.filter_filter]

def Reaches (tree : FileTree) (path : Path) (left : Nat) (final : Standing) : Prop :=
  ∃ standing, Standing.start tree path = some standing ∧
    Leads tree mostLinks standing path.names left final

/-- The directory that a path names, links followed. The empty path names the working directory,
where the paths joined to it start. -/
def directory? (tree : FileTree) (path : Path) : Option Location :=
  match tree.follow .inspect true path with
  | .ok ⟨location, some (.directory _), _⟩ => some location
  | _ => none

theorem Standing.start_congr {path other : Path} (same : path.isAbsolute = other.isAbsolute) :
    Standing.start tree path = Standing.start tree other := by
  simp only [start, same]

theorem Reaches.stands {path : Path} {left : Nat} {final : Standing}
    (reaches : tree.Reaches path left final) : final.Stands tree := by
  obtain ⟨standing, starts, leads⟩ := reaches
  exact leads.stands (Standing.stands_start starts)

theorem Reaches.congr {path other : Path} {left : Nat} {final : Standing}
    (reaches : tree.Reaches path left final) (absolute : other.isAbsolute = path.isAbsolute)
    (names : other.names = path.names) : tree.Reaches other left final := by
  obtain ⟨standing, starts, leads⟩ := reaches
  exact ⟨standing, (Standing.start_congr absolute).trans starts, names ▸ leads⟩

theorem Reaches.leads_segments {path : Path} {left : Nat} {final : Standing}
    (reaches : tree.Reaches path left final) :
    ∃ standing, Standing.start tree path = some standing ∧
      Leads tree mostLinks standing path.segments left final := by
  obtain ⟨standing, starts, leads⟩ := reaches
  refine ⟨standing, starts, leads.congr ?_⟩
  rw [Path.names_eq_filter_segments, List.filter_filter]
  simp

theorem reaches_of_leads_segments {path : Path} {left : Nat} {standing final : Standing}
    (starts : Standing.start tree path = some standing)
    (leads : Leads tree mostLinks standing path.segments left final) :
    tree.Reaches path left final := by
  refine ⟨standing, starts, leads.congr ?_⟩
  rw [Path.names_eq_filter_segments, List.filter_filter]
  simp

theorem reaches_of_follow {purpose : Purpose} {insists insisted : Bool} {path : Path}
    {location : Location} {entries : Entries}
    (gets : tree.follow purpose insists path =
      .ok ⟨location, some (.directory entries), insisted⟩) :
    ∃ left final, tree.Reaches path left final ∧ final.location = location := by
  unfold FileTree.follow at gets
  cases starts : Standing.start tree path with
  | none => simp [starts] at gets
  | some standing =>
      simp only [starts] at gets
      cases walk_arrives (Standing.stands_start starts) gets with
      | directory leads there _ =>
          exact ⟨_, _, reaches_of_leads_segments starts leads, there.symm⟩
      | entry _ _ _ leaf _ => exact absurd rfl (leaf entries)

theorem directory?_eq_some_iff {path : Path} {location : Location} :
    tree.directory? path = some location ↔
      ∃ left final, tree.Reaches path left final ∧ final.location = location := by
  constructor
  · intro named
    unfold directory? at named
    split at named
    · rename_i entries insisted gets
      cases named
      exact reaches_of_follow gets
    · cases named
  · rintro ⟨left, final, reaches, rfl⟩
    obtain ⟨standing, starts, leads⟩ := reaches.leads_segments
    obtain ⟨insisted, gets⟩ := leads.walk_inspect true
    simp only [directory?, follow, starts, gets]

/-- A path that goes on from a directory is looked up from there. -/
theorem Reaches.follow {base path : Path} {left : Nat} {final : Standing} {above : List Name}
    {last : Name} (reaches : tree.Reaches base left final)
    (absolute : path.isAbsolute = base.isAbsolute) (ends : path.EndsInName)
    (spelled : path.names = base.names ++ above ++ [last]) (purpose : Purpose) (insists : Bool) :
    tree.follow purpose insists path = walk tree purpose left final (above ++ [last]) insists := by
  obtain ⟨standing, starts, leads⟩ := reaches
  obtain ⟨way, pieces, same⟩ := ends.segments_eq spelled
  unfold FileTree.follow
  rw [Standing.start_congr absolute, starts, pieces]
  calc walk tree purpose mostLinks standing (way ++ [last]) insists
      = walk tree purpose mostLinks standing (base.names ++ (above ++ [last])) insists := by
        rw [walk_filter (by simp), same, List.append_assoc]
    _ = walk tree purpose left final (above ++ [last]) insists := leads.walk_append (by simp) _ _

end FileTree

end ArchiveTraversal
