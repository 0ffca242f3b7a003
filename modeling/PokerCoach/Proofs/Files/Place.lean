import PokerCoach.Files.Tree

/-!
# Names in a directory

A path that joins a name to a directory leads to that name in the directory and nowhere else,
however the path of the directory is written, as long as the name is one that a file can have.
-/

namespace PokerCoach

namespace FileTree

/-- A name of a single file: it has no slash and is none of the names with a meaning of their own. -/
structure NamesFile (name : String) : Prop where
  noSlash : '/' ∉ name.toList
  ne_empty : name ≠ ""
  ne_here : name ≠ "."
  ne_above : name ≠ ".."

/-- A path starts where the path of a directory starts and goes down by one name from there. So where
the path of the directory can be followed, this path enters the name in it. -/
structure LeadsInto (path directory name : String) : Prop where
  start : path.toList.head? = some '/' ↔ directory.toList.head? = some '/'
  place : place path = place directory ++ [name]
  down : name ≠ ".."
  follow : ∀ (tree : FileTree) (working : String) (parent : Place),
    tree.follow working directory = .ok parent → tree.follow working path = tree.enter parent name

/-- A step that goes nowhere ends where it starts. -/
theorem eq_of_enter_here {tree : FileTree} {place next : Place}
    (henter : tree.enter place "." = .ok next) : next = place := by
  have hdirectory := node?_of_enter henter
  rw [enter, hdirectory] at henter
  cases henter
  rfl

theorem foldlM_enter_concat (tree : FileTree) (start names : Place) (name : String) :
    (names ++ [name]).foldlM tree.enter start =
      (names.foldlM tree.enter start).bind fun place => tree.enter place name := by
  simp only [List.foldlM_append, List.foldlM_cons, List.foldlM_nil, bind_pure]
  rfl

/-! ### The names of a path -/

/-- A slash ends a name. Everything about the names of a path follows from this. -/
theorem names_slash (first second : String) :
    names (first ++ "/" ++ second) = names first ++ names second := by
  have hchars : (first ++ "/" ++ second).toList = first.toList ++ '/' :: second.toList := by
    simp
  rw [names, hchars, List.splitOn_append_cons_self, List.map_append]
  rfl

theorem names_empty : names "" = ["."] := rfl

section Names

variable {name : String} (hname : NamesFile name)
include hname

theorem NamesFile.names_eq : names name = [name] := by
  have hnonempty : name.toList.isEmpty = false := by
    simpa using hname.ne_empty
  rw [names, List.splitOn_eq_singleton hname.noSlash, List.map_singleton, hnonempty]
  simp

theorem NamesFile.head?_ne_slash : name.toList.head? ≠ some '/' :=
  fun hhead => hname.noSlash (List.mem_of_head? hhead)

/-- The names on the way to the joined path are those on the way to the directory and the name. A
slash at the end of the directory adds a step that goes nowhere. -/
theorem NamesFile.names_joinPath {directory : String} (hdirectory : directory ≠ "") :
    names (joinPath directory name) = names directory ++ [name] ∨
      ∃ init, names directory = init ++ ["."] ∧
        names (joinPath directory name) = init ++ [name] := by
  have hjoin : joinPath directory name =
      if directory.toList.getLast? = some '/' then directory ++ name
      else directory ++ "/" ++ name := by
    rw [joinPath, if_neg hname.head?_ne_slash, if_neg (by simpa using hdirectory)]
  by_cases hlast : directory.toList.getLast? = some '/'
  · obtain ⟨init, hinit⟩ := List.getLast?_eq_some_iff.mp hlast
    have hsplit : directory = String.ofList init ++ "/" := by
      rw [← String.toList_inj, hinit]
      simp
    right
    refine ⟨names (String.ofList init), ?_, ?_⟩
    · have hnames := names_slash (String.ofList init) ""
      rwa [String.append_empty, ← hsplit, names_empty] at hnames
    · rw [hjoin, if_pos hlast, hsplit, names_slash, hname.names_eq]
  · left
    rw [hjoin, if_neg hlast, names_slash, hname.names_eq]

/-! ### Where a joined path leads -/

theorem NamesFile.place_joinPath (directory : String) :
    place (joinPath directory name) = place directory ++ [name] := by
  have hself : [name].filter (· != ".") = [name] := by simpa using hname.ne_here
  by_cases hdirectory : directory = ""
  · subst hdirectory
    have hjoin : joinPath "" name = name := by
      rw [joinPath, if_neg hname.head?_ne_slash]
      rfl
    rw [hjoin, place, hname.names_eq, hself]
    rfl
  · unfold place
    rcases hname.names_joinPath hdirectory with hnames | ⟨init, hinit, hnames⟩
    · rw [hnames, List.filter_append, hself]
    · have hhere : ["."].filter (· != ".") = [] := rfl
      rw [hnames, hinit, List.filter_append, List.filter_append, hself, hhere, List.append_nil]

theorem NamesFile.head?_joinPath (directory : String) :
    (joinPath directory name).toList.head? = some '/' ↔ directory.toList.head? = some '/' := by
  rw [joinPath, if_neg hname.head?_ne_slash]
  by_cases hdirectory : directory = ""
  · subst hdirectory
    exact iff_of_false hname.head?_ne_slash (by simp)
  · obtain ⟨first, rest, hchars⟩ :=
      List.exists_cons_of_ne_nil (show directory.toList ≠ [] by simpa using hdirectory)
    rw [if_neg (by simpa using hdirectory)]
    split <;> simp [hchars]

theorem NamesFile.follow_joinPath {directory : String} {tree : FileTree} {working : String}
    {parent : Place} (hparent : tree.follow working directory = .ok parent) :
    tree.follow working (joinPath directory name) = tree.enter parent name := by
  have hdirectory : directory ≠ "" := by
    rintro rfl
    cases hparent
  have hjoined : joinPath directory name ≠ "" := by
    intro hempty
    have hplace := hname.place_joinPath directory
    rw [hempty] at hplace
    exact List.cons_ne_nil _ _ (List.append_eq_nil_iff.mp hplace.symm).2
  have hstart := hname.head?_joinPath directory
  unfold follow at hparent ⊢
  rw [if_neg (by simpa using hdirectory)] at hparent
  rw [if_neg (by simpa using hjoined)]
  simp only [hstart]
  rcases hname.names_joinPath hdirectory with hnames | ⟨init, hinit, hnames⟩
  · rw [hnames, foldlM_enter_concat, hparent]
    rfl
  · rw [hinit, foldlM_enter_concat] at hparent
    rw [hnames, foldlM_enter_concat]
    generalize init.foldlM tree.enter _ = followed at hparent ⊢
    cases followed with
    | error fault => cases hparent
    | ok last =>
        obtain rfl := eq_of_enter_here hparent
        rfl

theorem NamesFile.leadsInto (directory : String) :
    LeadsInto (joinPath directory name) directory name where
  start := hname.head?_joinPath directory
  place := hname.place_joinPath directory
  down := hname.ne_above
  follow _ _ _ hparent := hname.follow_joinPath hparent

end Names

end FileTree

end PokerCoach
