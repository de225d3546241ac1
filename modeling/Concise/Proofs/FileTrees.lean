import Concise.Proofs.Paths

/-!
Trees of files, and where paths lead in them.

* `FileSystem.IsTree`: every file has a name, lies in directories and is none itself, and every
  directory can be listed.
* `FileSystem.mem_names`: the names in a directory.
* `FileSystem.IsTree.locate_under`: the path of a file below a directory leads to that file.
* `FileSystem.locate_direct`: a path without `..` leads to the place that its names spell.
-/

namespace Concise.FileSystem

/-- Every file has names that paths can spell, lies in directories, and is no directory; and every
directory can be listed. -/
structure IsTree (fs : FileSystem) : Prop where
  names : ∀ file ∈ fs.files, ∀ name ∈ file.1, Path.isName name = true
  parents : ∀ file ∈ fs.files, ∀ n < file.1.length, fs.isDirectoryAt (file.1.take n) = true
  apart : ∀ file ∈ fs.files, fs.isDirectoryAt file.1 = false
  listed : fs.closed = []

variable {fs : FileSystem}

/-! ### Files -/

lemma contentAt?_isSome_iff {location : Location} :
    (fs.contentAt? location).isSome = true ↔ ∃ file ∈ fs.files, file.1 = location := by
  unfold contentAt?
  induction fs.files with
  | nil => simp
  | cons file files ih =>
      obtain ⟨place, content⟩ := file
      rw [List.lookup_cons]
      by_cases h : location = place
      · subst h
        simp
      · have hkey : (location == place) = false := beq_false_of_ne h
        simp only [hkey, ih]
        simp [Ne.symm h]

lemma below?_eq_some_iff {location place names : Location} :
    location.below? place = some names ↔ place = location ++ names := by
  induction location generalizing place with
  | nil => simp [Location.below?, eq_comm]
  | cons a as ih =>
      cases place with
      | nil => simp [Location.below?]
      | cons b bs =>
          by_cases h : a = b
          · subst h
            simp [Location.below?, ih]
          · simp [Location.below?, h, Ne.symm h]

/-! ### Listing -/

lemma child?_eq_some_iff {location place : Location} {name : String} :
    location.child? place = some name ↔ place = location ++ [name] := by
  rw [← below?_eq_some_iff, Location.child?]
  split
  · simp [*]
  · rename_i hother
    exact ⟨nofun, fun h => absurd h (hother name)⟩

lemma mem_locations {location : Location} : location ∈ fs.locations ↔
    (fs.contentAt? location).isSome = true ∨ location ∈ fs.directories := by
  rw [locations, List.mem_append, List.mem_map, contentAt?_isSome_iff]

lemma mem_insertName {name other : String} {names : List String} :
    other ∈ insertName name names ↔ other = name ∨ other ∈ names := by
  induction names with
  | nil => simp [insertName]
  | cons first rest ih =>
      rw [insertName]
      split
      · simp
      · rename_i heq
        obtain rfl := Std.LawfulEqOrd.eq_of_compare heq
        simp
      · simp [ih, or_left_comm]

/-- **The names in a directory** are those of the files and of the directories right in it. -/
lemma mem_names {location : Location} {name : String} : name ∈ fs.names location ↔
    (fs.contentAt? (location ++ [name])).isSome = true ∨
      fs.isDirectoryAt (location ++ [name]) = true := by
  have hinsert : ∀ found : List String, name ∈ found.foldr insertName [] ↔ name ∈ found := by
    intro found
    induction found with
    | nil => rfl
    | cons first rest ih => rw [List.foldr_cons, mem_insertName, ih, List.mem_cons]
  rw [names, hinsert, List.mem_filterMap]
  simp only [child?_eq_some_iff, exists_eq_right, mem_locations, isDirectoryAt]
  simp

lemma list_eq (hlisted : fs.closed = []) (location : Location) :
    fs.list location = .ok (fs.names location) := by
  simp [list, hlisted]

lemma length_le_depth {location : Location} (h : location ∈ fs.locations) :
    location.length ≤ fs.depth := by
  rw [depth]
  generalize fs.locations = locations at h
  induction locations with
  | nil => cases h
  | cons first rest ih =>
      rw [List.foldr_cons]
      rcases List.mem_cons.mp h with rfl | h
      · exact Nat.le_max_left _ _
      · exact Nat.le_trans (ih h) (Nat.le_max_right _ _)

lemma length_le_depth_of_isDirectoryAt {location : Location}
    (h : fs.isDirectoryAt location = true) : location.length ≤ fs.depth := by
  rcases Bool.or_eq_true_iff.mp h with hroot | hmem
  · rw [List.isEmpty_iff.mp hroot]
    exact Nat.zero_le _
  · exact length_le_depth (mem_locations.mpr (.inr (List.contains_iff_mem.mp hmem)))

/-! ### Following -/

lemma follow_append (location : Location) (ps qs : List String) :
    fs.follow location (ps ++ qs) =
      (fs.follow location ps).bind fun place => fs.follow place qs := by
  induction ps generalizing location with
  | nil => rfl
  | cons p ps ih =>
      rw [List.cons_append, follow, follow]
      split
      · exact ih _
      · split <;> rfl

lemma follow_cons_eq_ok_iff {location place : Location} {p : String} {ps : List String} :
    fs.follow location (p :: ps) = .ok place ↔
      fs.isDirectoryAt location = true ∧ fs.follow (location.step p) ps = .ok place := by
  rw [follow]
  split
  · simp [*]
  · split <;> simp [*]

/-- Following pieces goes from piece to piece. -/
lemma eq_foldl_of_follow {location place : Location} {ps : List String}
    (h : fs.follow location ps = .ok place) : place = ps.foldl Location.step location := by
  induction ps generalizing location with
  | nil => exact (Except.ok.inj h).symm
  | cons p ps ih => exact ih (follow_cons_eq_ok_iff.mp h).2

/-- Empty pieces may be left out. -/
lemma follow_filter {location place : Location} {ps : List String}
    (h : fs.follow location ps = .ok place) :
    fs.follow location (ps.filter (· != "")) = .ok place := by
  induction ps generalizing location with
  | nil => exact h
  | cons p ps ih =>
      obtain ⟨hdirectory, hrest⟩ := follow_cons_eq_ok_iff.mp h
      by_cases hp : p = ""
      · subst hp
        exact ih hrest
      · rw [List.filter_cons_of_pos (by simpa using hp)]
        exact follow_cons_eq_ok_iff.mpr ⟨hdirectory, ih hrest⟩

/-- In particular an empty last piece. -/
lemma follow_innerPieces {location place : Location} {ps : List String}
    (h : fs.follow location ps = .ok place) :
    fs.follow location (Path.innerPieces ps) = .ok place := by
  unfold Path.innerPieces
  split
  · rename_i hlast
    obtain ⟨before, rfl⟩ := List.getLast?_eq_some_iff.mp (beq_iff_eq.mp hlast)
    rw [List.dropLast_concat]
    rw [follow_append] at h
    cases hbefore : fs.follow location before with
    | error fault =>
        rw [hbefore] at h
        cases h
    | ok middle =>
        rw [hbefore] at h
        exact congrArg Except.ok (Except.ok.inj (follow_cons_eq_ok_iff.mp h).2)
  · exact h

/-- So may `.` at the start. -/
lemma follow_dropWhile {location place : Location} {ps : List String}
    (h : fs.follow location ps = .ok place) :
    fs.follow location (ps.dropWhile (· == ".")) = .ok place := by
  induction ps with
  | nil => exact h
  | cons p ps ih =>
      by_cases hp : p = "."
      · subst hp
        exact ih (follow_cons_eq_ok_iff.mp h).2
      · rwa [List.dropWhile_cons_of_neg (by simpa using hp)]

lemma step_of_component? {location : Location} {piece name : String}
    (h : Path.component? piece = some (.name name)) : location.step piece = location ++ [name] := by
  unfold Path.component? at h
  unfold Location.step
  split at h <;> simp_all

lemma IsTree.isName_of_contentAt? (htree : fs.IsTree) {location names : Location}
    (hfile : (fs.contentAt? (location ++ names)).isSome = true) :
    ∀ name ∈ names, Path.isName name = true := by
  obtain ⟨file, hmem, hplace⟩ := contentAt?_isSome_iff.mp hfile
  intro name hname
  exact htree.names file hmem name (by rw [hplace]; exact List.mem_append_right _ hname)

/-- What a file is below is a directory. -/
lemma IsTree.isDirectoryAt_of_contentAt? (htree : fs.IsTree) {location names : Location}
    {name : String} (hfile : (fs.contentAt? (location ++ name :: names)).isSome = true) :
    fs.isDirectoryAt location = true := by
  obtain ⟨file, hmem, hplace⟩ := contentAt?_isSome_iff.mp hfile
  have hparent := htree.parents file hmem location.length (by simp [hplace])
  rwa [hplace, List.take_left' rfl] at hparent

/-- The names of a file lead to it from any directory that it is below. -/
lemma IsTree.follow_names (htree : fs.IsTree) {location names : Location}
    (hfile : (fs.contentAt? (location ++ names)).isSome = true) :
    fs.follow location names = .ok (location ++ names) := by
  induction names generalizing location with
  | nil => simp [follow]
  | cons name names ih =>
      have hname := htree.isName_of_contentAt? hfile name List.mem_cons_self
      have hdirectory := htree.isDirectoryAt_of_contentAt? hfile
      have hsplit : location ++ name :: names = location ++ [name] ++ names := by simp
      rw [hsplit] at hfile ⊢
      refine follow_cons_eq_ok_iff.mpr ⟨hdirectory, ?_⟩
      rw [step_of_component? (Path.component?_of_isName hname)]
      exact ih hfile

/-! ### Locating -/

/-- Where a path begins. -/
def start (fs : FileSystem) (path : Path) : Location :=
  if path.isAbsolute then [] else fs.workingDirectory

lemma locate_eq {path : Path} (hpath : path ≠ "") :
    fs.locate path = fs.follow (fs.start path) path.pieces := by
  have hempty : path.isEmpty = false := by simpa using hpath
  unfold locate start
  rw [hempty]
  cases habsolute : path.isAbsolute with
  | true =>
      obtain ⟨rest, hpieces⟩ := Path.pieces_of_isAbsolute habsolute
      simp only [hpieces]
      exact (if_pos rfl).symm
  | false =>
      have hrelative := Path.pieces_of_not_isAbsolute hpath habsolute
      simp only [Bool.false_eq_true, if_false]

lemma ne_empty_of_locate {path : Path} {location : Location} (h : fs.locate path = .ok location) :
    path ≠ "" := by
  rintro rfl
  cases h

lemma fileAt?_eq_some_iff {path : Path} {location : Location} :
    fs.fileAt? path = some location ↔
      fs.locate path = .ok location ∧ (fs.contentAt? location).isSome = true := by
  unfold fileAt?
  split
  · rename_i place hplace
    rw [hplace]
    grind
  · simp [*]

lemma directoryAt?_eq_some_iff {path : Path} {location : Location} :
    fs.directoryAt? path = some location ↔
      fs.locate path = .ok location ∧ fs.isDirectoryAt location = true := by
  unfold directoryAt?
  split
  · rename_i place hplace
    rw [hplace]
    grind
  · simp [*]

/-- The pieces that paths below a directory keep lead to it. -/
lemma follow_keptPieces {directory : Path} {location : Location}
    (h : fs.locate directory = .ok location) :
    fs.follow (fs.start directory) directory.keptPieces = .ok location := by
  have hdirectory := ne_empty_of_locate h
  rw [locate_eq hdirectory] at h
  cases habsolute : directory.isAbsolute with
  | true =>
      obtain ⟨rest, hpieces⟩ := Path.pieces_of_isAbsolute habsolute
      rw [hpieces] at h
      simp only [Path.keptPieces, hpieces]
      exact follow_filter (follow_cons_eq_ok_iff.mp h).2
  | false =>
      rw [Path.keptPieces_of_relative (Path.pieces_of_not_isAbsolute hdirectory habsolute)]
      exact follow_filter (follow_dropWhile h)

/-- **The path of a file below a directory leads to that file.** -/
lemma IsTree.locate_under (htree : fs.IsTree) {directory : Path} {location names : Location}
    (hdirectory : fs.locate directory = .ok location) (hbreaks : directory.breaksOff = false)
    (hne : names ≠ []) (hfile : (fs.contentAt? (location ++ names)).isSome = true) :
    fs.locate (directory.under names) = .ok (location ++ names) := by
  have hnames : ∀ name ∈ names, Path.isName name = true := htree.isName_of_contentAt? hfile
  have hempty := ne_empty_of_locate hdirectory
  have hpieces := Path.pieces_under hnames hne directory
  have hunder : directory.under names ≠ "" := by
    intro h
    have hcomponents := Path.components_under hnames hne hempty hbreaks
    rw [h] at hcomponents
    exact hne (List.map_eq_nil_iff.mp (List.append_eq_nil_iff.mp hcomponents.symm).2)
  have hstart : fs.start (directory.under names) = fs.start directory := by
    rw [start, Path.isAbsolute_under hnames hne hempty hbreaks, start]
  have hlead : fs.follow (fs.start directory) (if directory.isAbsolute then [""] else []) =
      .ok (fs.start directory) := by
    unfold start
    split <;> rfl
  rw [locate_eq hunder, hstart, hpieces, follow_append, hlead, Except.bind, follow_append,
    follow_keptPieces hdirectory]
  exact htree.follow_names hfile

lemma foldl_step {ps : List String} (hps : ".." ∉ ps) (location : Location) :
    ∃ names : List String, ps.foldl Location.step location = location ++ names ∧
      ps.filterMap Path.component? = names.map .name := by
  induction ps generalizing location with
  | nil => exact ⟨[], by simp, rfl⟩
  | cons p ps ih =>
      rw [List.mem_cons, not_or] at hps
      obtain ⟨names, hfold, hnames⟩ := ih hps.2 (location.step p)
      rw [List.foldl_cons, hfold, Path.filterMap_component?_cons, hnames]
      by_cases hempty : p = ""
      · subst hempty
        exact ⟨names, rfl, rfl⟩
      by_cases hdot : p = "."
      · subst hdot
        exact ⟨names, rfl, rfl⟩
      have hname := Path.component?_of_ne hempty hdot (Ne.symm hps.1)
      refine ⟨p :: names, ?_, by rw [hname]; rfl⟩
      rw [step_of_component? hname, List.append_assoc]
      rfl

/-- **A path without `..` leads to the place that its names spell.** -/
lemma locate_direct {path : Path} {location : Location} (h : fs.locate path = .ok location)
    (hdirect : Path.Component.parent ∉ path.components) :
    ∃ names : List String, location = fs.start path ++ names ∧
      path.components.filter (· ≠ .current) =
        (if path.isAbsolute then [.root] else []) ++ names.map .name := by
  have hpieces : ".." ∉ path.pieces := by
    intro hmem
    have hparent : Path.Component.parent ∈ path.components.filter (· ≠ .current) := by
      rw [Path.filter_components]
      exact List.mem_append_right _ (List.mem_filterMap.mpr ⟨"..", hmem, rfl⟩)
    exact hdirect (List.mem_of_mem_filter hparent)
  rw [locate_eq (ne_empty_of_locate h)] at h
  obtain ⟨names, hfold, hnames⟩ := foldl_step hpieces (fs.start path)
  exact ⟨names, (eq_foldl_of_follow h).trans hfold, by rw [Path.filter_components, hnames]⟩

/-- Two direct paths that begin in the same place and lead to the same place are the same path. -/
lemma components_eq_of_locate {a b : Path} {location : Location}
    (ha : fs.locate a = .ok location) (hb : fs.locate b = .ok location)
    (hdirect : a.isDirect = true) (hdirect' : b.isDirect = true)
    (hroot : a.isAbsolute = b.isAbsolute) : a.components = b.components := by
  have hself : ∀ {path : Path}, path.isDirect = true →
      path.components.filter (· ≠ .current) = path.components := by
    intro path hpath
    refine List.filter_eq_self.mpr fun component hmem => ?_
    simpa using ne_of_mem_of_not_mem hmem (Path.isDirect_iff.mp hpath).1
  obtain ⟨names, hplace, hnames⟩ := locate_direct ha (Path.isDirect_iff.mp hdirect).2
  obtain ⟨names', hplace', hnames'⟩ := locate_direct hb (Path.isDirect_iff.mp hdirect').2
  have hstart : fs.start a = fs.start b := by rw [start, hroot, start]
  rw [hplace, hstart] at hplace'
  rw [← hself hdirect, ← hself hdirect', hnames, hnames', hroot, List.append_cancel_left hplace']

end Concise.FileSystem
