import Legible.Command.Session

/-!
Files of a tree, and those that a command reads.

A path of plain names leads to the file that a tree has there, unless another file stands in its
way. The program reads the files that its arguments name before it answers. What it does not read it
cannot see, and yet it answers as if it saw the whole tree.
-/

set_option autoImplicit false

namespace Legible

namespace FileTree

variable {tree : FileTree}

theorem isBelow_iff {directory path : List String} :
    isBelow directory path ↔ ∃ name rest, path = directory ++ name :: rest := by
  induction directory generalizing path with
  | nil => cases path <;> simp [isBelow]
  | cons d directory ih =>
    cases path with
    | nil => simp [isBelow]
    | cons p path =>
      rw [isBelow, Bool.and_eq_true, beq_iff_eq, ih]
      constructor
      · rintro ⟨rfl, name, rest, rfl⟩
        exact ⟨name, rest, rfl⟩
      · rintro ⟨name, rest, same⟩
        obtain ⟨first, rest'⟩ := List.cons.inj same
        exact ⟨first.symm, name, rest, rest'⟩

theorem mem_of_lookup {path : List String} {content : String}
    (stored : tree.files.lookup path = some content) : (path, content) ∈ tree.files := by
  obtain ⟨before, after, split, -⟩ := List.lookup_eq_some_iff.1 stored
  rw [split]
  exact List.mem_append_right before (List.mem_cons_self ..)

/-! ### Places below the tree's directory -/

theorem node?_within {path : List String} (nonempty : path ≠ []) :
    tree.node? (.within path) = match tree.files.lookup path with
      | some content => some (.file content)
      | none => if tree.files.any (isBelow path ·.1) then some .directory else none := by
  cases path with
  | nil => exact absurd rfl nonempty
  | cons name rest => rfl

theorem node?_eq_file_iff {path : List String} (nonempty : path ≠ []) {content : String} :
    tree.node? (.within path) = some (.file content) ↔
      tree.files.lookup path = some content := by
  rw [node?_within nonempty]
  cases tree.files.lookup path with
  | some stored => simp
  | none =>
    cases tree.files.any (isBelow path ·.1) <;> simp

theorem node?_within_ne_null (path : List String) : tree.node? (.within path) ≠ some .null := by
  cases path with
  | nil => simp [node?]
  | cons name rest =>
    rw [node?_within (List.cons_ne_nil name rest)]
    cases tree.files.lookup (name :: rest) with
    | some stored => simp
    | none => split <;> simp

theorem node?_eq_directory {before : List String} {name : String} {rest : List String}
    {content : String} (clear : ∀ file ∈ tree.files, ¬ isBelow file.1 (before ++ name :: rest))
    (stored : (before ++ name :: rest, content) ∈ tree.files) :
    tree.node? (.within before) = some .directory := by
  have holds : isBelow before (before ++ name :: rest) := isBelow_iff.2 ⟨name, rest, rfl⟩
  have below : tree.files.any (isBelow before ·.1) := List.any_eq_true.2 ⟨_, stored, holds⟩
  cases before with
  | nil => rfl
  | cons first others =>
    have noFile : tree.files.lookup (first :: others) = none := by
      refine Option.eq_none_iff_forall_ne_some.2 fun other there => ?_
      exact clear _ (mem_of_lookup there) holds
    rw [node?_within (List.cons_ne_nil first others), noFile, if_pos below]

/-! ### Paths of names -/

/-- A name that leads from a directory to what it holds. -/
structure IsName (name : String) : Prop where
  nonempty : name ≠ ""
  notHere : name ≠ "."
  notParent : name ≠ ".."
  short : name.utf8ByteSize ≤ longestName

theorem step_of_isName {name : String} (isName : IsName name) (place : Place) :
    step place name = (place.child? name).elim (.error .missing) .ok := by
  have visible : ¬ (name = "" ∨ name = ".") := by simp [isName.nonempty, isName.notHere]
  rw [step, if_neg visible, if_neg isName.notParent, if_neg (Nat.not_lt.2 isName.short)]
  cases place.child? name <;> rfl

theorem walk_nil (place : Place) :
    tree.walk place [] = match tree.node? place with
      | some node => .ok node
      | none => .error .missing := by
  cases found : tree.node? place <;> simp [walk, found]

theorem walk_nil_eq_ok_iff {place : Place} {node : Node} :
    tree.walk place [] = .ok node ↔ tree.node? place = some node := by
  rw [walk_nil]
  cases tree.node? place <;> simp

theorem walk_cons (place : Place) (name : String) (rest : List String) :
    tree.walk place (name :: rest) = match tree.node? place with
      | none => .error .missing
      | some .directory => do tree.walk (← step place name) rest
      | some _ => .error .notDirectory := by
  cases found : tree.node? place with
  | none => simp [walk, found]
  | some node =>
    cases node with
    | file | null => simp [walk, found]
    | directory =>
      simp only [walk, found]
      cases step place name <;> rfl

theorem walk_cons_eq_ok_iff {place : Place} {name : String} {rest : List String} {node : Node} :
    tree.walk place (name :: rest) = .ok node ↔ tree.node? place = some .directory ∧
      ∃ child, step place name = .ok child ∧ tree.walk child rest = .ok node := by
  rw [walk_cons]
  split
  next unknown => simp [unknown]
  next directory =>
    cases step place name with
    | error fault => simp [directory, bind, Except.bind]
    | ok child => simp [directory, bind, Except.bind]
  next other different known =>
    have noDirectory : other ≠ .directory := different
    simp [known, noDirectory]

/-- Names can lead to nothing but what is there below the tree's directory. -/
theorem node?_of_walk {before names : List String} {node : Node}
    (each : ∀ name ∈ names, IsName name)
    (found : tree.walk (.within before) names = .ok node) :
    tree.node? (.within (before ++ names)) = some node := by
  induction names generalizing before with
  | nil => rwa [walk_nil_eq_ok_iff, ← List.append_nil before] at found
  | cons name rest ih =>
    obtain ⟨isName, later⟩ := List.forall_mem_cons.1 each
    obtain ⟨-, child, next, found⟩ := walk_cons_eq_ok_iff.1 found
    rw [step_of_isName isName] at next
    cases next
    have whole := ih later found
    rwa [List.append_assoc] at whole

/-- Names lead down to a file, if none of the tree's files would have to hold it. -/
theorem walk_of_lookup {before names : List String} {content : String}
    (each : ∀ name ∈ names, IsName name) (nonempty : before ++ names ≠ [])
    (clear : ∀ file ∈ tree.files, ¬ isBelow file.1 (before ++ names))
    (stored : tree.files.lookup (before ++ names) = some content) :
    tree.walk (.within before) names = .ok (.file content) := by
  induction names generalizing before with
  | nil =>
    rw [List.append_nil] at nonempty stored
    rw [walk_nil_eq_ok_iff, node?_eq_file_iff nonempty, stored]
  | cons name rest ih =>
    obtain ⟨isName, later⟩ := List.forall_mem_cons.1 each
    -- The directory holds the file, so it is there, and no file is in its place.
    have directory := node?_eq_directory clear (mem_of_lookup stored)
    have whole : before ++ name :: rest = before ++ [name] ++ rest := by simp
    rw [whole] at nonempty clear stored
    have found := ih later nonempty clear stored
    exact walk_cons_eq_ok_iff.2 ⟨directory, _, step_of_isName isName _, found⟩

theorem components_ne_nil (path : String) : components path ≠ [] := by
  simp [components, List.splitOn_ne_nil]

theorem components_inj {path path' : String} :
    components path = components path' ↔ path = path' := by
  constructor
  · intro same
    have pieces := (List.map_inj_right fun _ _ => String.ofList_inj.1).1 same
    have joined := congrArg (List.intercalate ['/']) pieces
    rw [List.intercalate_splitOn, List.intercalate_splitOn] at joined
    exact String.toList_inj.1 joined
  · exact congrArg components

theorem lookup_ofPaths (files : List (String × String)) (path : String) :
    (ofPaths files).files.lookup (components path) = files.lookup path := by
  induction files with
  | nil => rfl
  | cons file rest ih =>
    obtain ⟨stored, content⟩ := file
    have alike : (components path == components stored) = (path == stored) := by
      rw [Bool.eq_iff_iff, beq_iff_eq, beq_iff_eq, components_inj]
    rw [List.lookup_cons, ← ih, ← alike]
    rfl

/-- A relative path of plain names. -/
structure IsPlain (path : String) : Prop where
  names : ∀ name ∈ components path, IsName name
  short : path.utf8ByteSize ≤ longestPath

namespace IsPlain

variable {path : String}

theorem nonempty (plain : IsPlain path) : path ≠ "" := by
  rintro rfl
  exact (plain.names "" (by simp [components])).nonempty rfl

theorem start_eq (plain : IsPlain path) : start path = .within [] := by
  have relative : path.toList.head? ≠ some '/' := by
    intro head
    obtain ⟨rest, split⟩ := List.head?_eq_some_iff.1 head
    have empty : "" ∈ components path := by
      rw [components, split, ← List.nil_append (_ :: rest), List.splitOn_append_cons_self]
      simp
    exact (plain.names "" empty).nonempty rfl
  rw [start, if_neg relative]

theorem find_eq (plain : IsPlain path) :
    tree.find path = tree.walk (.within []) (components path) := by
  have nonempty : ¬ path.isEmpty := by simpa using plain.nonempty
  rw [find, if_neg nonempty, if_neg (Nat.not_lt.2 plain.short), plain.start_eq]

end IsPlain

theorem read_eq_ok_iff {path content : String} :
    tree.read path = .ok content ↔ tree.find path = .ok (.file content) ∨
      tree.find path = .ok .null ∧ content = "" := by
  rw [read]
  split
  next found => simp [found]
  next found => simp [found, eq_comm]
  next found => simp [found]
  next found => simp [found]

theorem isFile_iff {path : String} :
    tree.isFile path ↔ ∃ content, tree.find path = .ok (.file content) := by
  rw [isFile]
  split
  next content found => simp [found]
  next other =>
    simp only [Bool.false_eq_true, false_iff, not_exists]
    exact other

theorem find_ofPaths {files : List (String × String)} {path content : String}
    (plain : IsPlain path)
    (clear : ∀ file ∈ files, ¬ isBelow (components file.1) (components path)) :
    (ofPaths files).find path = .ok (.file content) ↔ files.lookup path = some content := by
  have nonempty := components_ne_nil path
  rw [plain.find_eq, ← lookup_ofPaths]
  constructor
  · intro found
    exact (node?_eq_file_iff nonempty).1 (node?_of_walk plain.names found)
  · intro stored
    refine walk_of_lookup plain.names nonempty ?_ stored
    intro file member
    obtain ⟨given, among, rfl⟩ := List.mem_map.1 member
    exact clear given among

/-- A plain path is read back from the files that it is among, unless one of them would have to hold
another. -/
theorem view_ofPaths {files : List (String × String)} {path : String} (plain : IsPlain path)
    (clear : ∀ file ∈ files, ¬ isBelow (components file.1) (components path)) :
    (∀ content, (ofPaths files).view.read path = .ok content ↔
      files.lookup path = some content) ∧
    (ofPaths files).view.isFile path = (files.lookup path).isSome := by
  constructor
  · intro content
    have noNull : (ofPaths files).find path ≠ .ok .null := by
      intro found
      rw [plain.find_eq] at found
      exact node?_within_ne_null _ (node?_of_walk plain.names found)
    have read : (ofPaths files).view.read path = .ok content ↔ _ := read_eq_ok_iff
    rw [read, find_ofPaths plain clear]
    simp [noNull]
  · have isFile : (ofPaths files).view.isFile path ↔ _ := isFile_iff
    rw [Bool.eq_iff_iff, Option.isSome_iff_exists, isFile]
    exact exists_congr fun content => find_ofPaths plain clear

example :
    ((ofPaths [("a/module.json", "text")]).view.read "./a/../a//module.json").toOption =
      some "text" := by
  decide +kernel

/-! ### What a tree never answers -/

theorem fault_of_step {place : Place} {name : String} {fault : ReadFault}
    (failed : step place name = .error fault) :
    fault ∈ [.missing, .notDirectory, .nameTooLong] := by
  unfold step at failed
  split at failed
  next => cases failed
  split at failed
  next => cases failed
  split at failed
  next => cases failed; simp
  split at failed
  next => cases failed
  next => cases failed; simp

theorem fault_of_walk {place : Place} {names : List String} {fault : ReadFault}
    (failed : tree.walk place names = .error fault) :
    fault ∈ [.missing, .notDirectory, .nameTooLong] := by
  induction names generalizing place with
  | nil =>
    rw [walk_nil] at failed
    split at failed
    next => cases failed
    next => cases failed; simp
  | cons name rest ih =>
    rw [walk_cons] at failed
    split at failed
    next => cases failed; simp
    next =>
      cases next : step place name with
      | error fault' =>
        rw [next] at failed
        cases failed
        exact fault_of_step next
      | ok child =>
        rw [next] at failed
        exact ih failed
    next => cases failed; simp

theorem fault_of_find {path : String} {fault : ReadFault}
    (failed : tree.find path = .error fault) :
    fault ∈ [.missing, .notDirectory, .nameTooLong] := by
  unfold find at failed
  split at failed
  next => cases failed; simp
  split at failed
  next => cases failed; simp
  next => exact fault_of_walk failed

theorem walk_append {place : Place} {before after : List String} {node : Node}
    (found : tree.walk place (before ++ after) = .ok node) :
    ∃ place', tree.walk place' after = .ok node := by
  induction before generalizing place with
  | nil => exact ⟨place, found⟩
  | cons name rest ih =>
    obtain ⟨-, child, -, found⟩ := walk_cons_eq_ok_iff.1 found
    exact ih found

theorem standard?_eq_null {path : List String} (device : standard? path = some .null) :
    path = ["dev", "null"] := by
  unfold standard? at device
  split at device
  case h_4 => rfl
  all_goals cases device

theorem node?_child_ne_null {place child : Place} {name : String} (other : name ≠ "null")
    (down : place.child? name = some child) : tree.node? child ≠ some .null := by
  cases place with
  | within path =>
    cases down
    exact node?_within_ne_null _
  | above => cases down
  | outside path =>
    cases down
    intro device
    have path' : path ++ [name] = ["dev"] ++ ["null"] := standard?_eq_null device
    exact other (List.cons.inj (List.append_inj_right' path' rfl)).1

/-- The device is found by its name alone. -/
theorem walk_ne_null {name : String} (isName : IsName name) (other : name ≠ "null")
    (place : Place) (before : List String) : tree.walk place (before ++ [name]) ≠ .ok .null := by
  intro found
  obtain ⟨last, found⟩ := walk_append found
  obtain ⟨-, child, next, found⟩ := walk_cons_eq_ok_iff.1 found
  rw [step_of_isName isName] at next
  cases down : last.child? name with
  | none =>
    rw [down] at next
    cases next
  | some place' =>
    rw [down] at next
    cases next
    exact node?_child_ne_null other down (walk_nil_eq_ok_iff.1 found)

theorem components_join (directory : String) {name : String} (noSeparator : '/' ∉ name.toList) :
    ∃ before, components (Path.join directory name) = before ++ [name] := by
  have alone : name.toList.splitOn '/' = [name.toList] := List.splitOn_eq_singleton noSeparator
  have after : ∀ first : List Char,
      ((first ++ '/' :: name.toList).splitOn '/').map String.ofList =
        (first.splitOn '/').map String.ofList ++ [name] := by
    intro first
    rw [List.splitOn_append_cons_self, alone]
    simp
  unfold Path.join
  split
  next => exact ⟨[], by simp [components, alone]⟩
  next last =>
    obtain ⟨first, split⟩ := List.getLast?_eq_some_iff.1 last
    refine ⟨(first.splitOn '/').map String.ofList, ?_⟩
    rw [components, String.toList_append, split, List.append_assoc, ← after]
    rfl
  next =>
    refine ⟨(directory.toList.splitOn '/').map String.ofList, ?_⟩
    rw [components, String.toList_append, String.toList_append, List.append_assoc, ← after]
    rfl

end FileTree

namespace Files

theorem read_ofReads (read : String → Except ReadFault String) {paths : List String}
    {path : String} (member : path ∈ paths) :
    (ofReads (paths.map fun path => (path, read path))).read path = read path := by
  have found : (paths.map fun path => (path, read path)).lookup path = some (read path) := by
    induction paths with
    | nil => cases member
    | cons first rest ih =>
      rw [List.map_cons, List.lookup_cons]
      by_cases same : path = first
      · simp [same]
      · rw [beq_eq_false_iff_ne.2 same]
        exact ih ((List.mem_cons.1 member).resolve_left same)
  simp only [ofReads, found]
  rfl

/-- A read tells whether there is a file, the device aside. -/
theorem isFile_ofReads {reads : List (String × Except ReadFault String)} {tree : FileTree}
    {path : String} (same : (ofReads reads).read path = tree.view.read path)
    (noDevice : tree.find path ≠ .ok .null) :
    (ofReads reads).isFile path = tree.view.isFile path := by
  have isFile : (ofReads reads).isFile path = tellsFile ((ofReads reads).read path) := rfl
  rw [isFile, same]
  simp only [FileTree.view, FileTree.read, FileTree.isFile]
  cases found : tree.find path with
  | ok node =>
    cases node with
    | file | directory => rfl
    | null => exact absurd found noDevice
  | error fault =>
    have known := FileTree.fault_of_find found
    simp only [List.mem_cons, List.not_mem_nil, or_false] at known
    obtain rfl | rfl | rfl := known
    all_goals rfl

end Files

namespace Session

variable {files files' : Files} {input : String} {settings : Option String}

theorem loadLayout_congr {path : String} (same : files.read path = files'.read path) :
    loadLayout files path = loadLayout files' path := by
  rw [loadLayout, loadLayout, readFile, readFile, same]

theorem chooseLayout_congr
    (same : files.read (settings.getD (neighborSettings input)) =
      files'.read (settings.getD (neighborSettings input)))
    (there : settings = none →
      files.isFile (neighborSettings input) = files'.isFile (neighborSettings input)) :
    chooseLayout files input settings = chooseLayout files' input settings := by
  cases settings with
  | some path => exact loadLayout_congr same
  | none =>
    have loaded := loadLayout_congr same
    simp only [Option.getD_none] at loaded
    simp only [chooseLayout, there rfl, loaded]

theorem render_congr (flags : List Flag) (same : files.read input = files'.read input)
    (chosen : chooseLayout files input settings = chooseLayout files' input settings) :
    render files input settings flags = render files' input settings flags := by
  simp only [render, readFile, same, chosen]

theorem find_neighborSettings_ne_null (tree : FileTree) (input : String) :
    tree.find (neighborSettings input) ≠ .ok .null := by
  have isName : FileTree.IsName settingsName :=
    ⟨by decide, by decide, by decide, by decide⟩
  obtain ⟨before, last⟩ := FileTree.components_join (Path.parent input)
    (show '/' ∉ settingsName.toList by decide)
  intro found
  unfold FileTree.find at found
  split at found
  next => cases found
  split at found
  next => cases found
  next =>
    rw [neighborSettings, last] at found
    exact FileTree.walk_ne_null isName (by decide) _ before found

theorem render_ofReads (tree : FileTree) (input : String) (settings : Option String)
    (flags : List Flag) :
    let paths := [input, settings.getD (neighborSettings input)]
    render (.ofReads (paths.map fun path => (path, tree.view.read path))) input settings flags =
      render tree.view input settings flags := by
  intro paths
  have read : ∀ path ∈ paths,
      (Files.ofReads (paths.map fun path => (path, tree.view.read path))).read path =
        tree.view.read path := fun path member => Files.read_ofReads tree.view.read member
  generalize paths.map (fun path => (path, tree.view.read path)) = reads at read ⊢
  have chosen : chooseLayout (.ofReads reads) input settings =
      chooseLayout tree.view input settings := by
    refine chooseLayout_congr (read _ (by simp [paths])) ?_
    rintro rfl
    have same := read (neighborSettings input) (by simp [paths])
    exact Files.isFile_ofReads same (find_neighborSettings_ne_null tree input)
  exact render_congr flags (read input (by simp [paths])) chosen

/-- The program reads before it answers, and only what its arguments name. It answers as if it saw
the whole tree. -/
theorem respond_ofReads (tree : FileTree) (directory elapsed : String) (arguments : List String) :
    respond (.ofReads ((candidates arguments).map fun path => (path, tree.view.read path)))
      directory elapsed arguments = respond tree.view directory elapsed arguments := by
  cases parsed : Command.parse arguments with
  | error => simp only [respond, parsed]
  | ok command =>
    cases command with
    | help => simp only [respond, parsed]
    | render input settings flags =>
      have rendered := render_ofReads tree input settings flags
      simp only [respond, candidates, parsed]
      rw [rendered]

end Session

end Legible
