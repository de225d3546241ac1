import Concise.Proofs.Collecting

/-!
What patterns are matched against.

* `Path.relativeTo_under`: the path of a file relative to the directory that it was found in is its
  path below that directory, unless the directory is spelled with `.` at its start. Then it is the
  whole path.
* `Discovery.mem_sorted_expand`: the files for which a directory stands.
* `Discovery.collect_dotted`: a directory with and without `./` in front stands for the same files
  exactly if the patterns tell no path below the directory from the whole path.
-/

namespace Concise

/-! ### Relative paths -/

namespace Path

lemma strip?_eq_some_iff {base path rest : List Component} :
    relativeTo.strip? base path = some rest ↔ path = base ++ rest := by
  induction base generalizing path with
  | nil => simp [relativeTo.strip?, eq_comm]
  | cons a as ih =>
      cases path with
      | nil => simp [relativeTo.strip?]
      | cons b bs =>
          by_cases h : a = b
          · subst h
            simp [relativeTo.strip?, ih]
          · simp [relativeTo.strip?, h, Ne.symm h]

section

variable {directory : Path} {names : Location} (hnames : ∀ name ∈ names, isName name = true)
  (hne : names ≠ []) (hdirectory : directory ≠ "") (hbreaks : directory.breaksOff = false)

include hnames hne hdirectory hbreaks

/-- **What is left of a path below a directory.** The components of the directory are in front of
the names, except that `.` at its start is not. -/
lemma relativeTo_under : (directory.under names).relativeTo directory =
    if Component.current ∈ directory.components then directory.under names
    else "/".intercalate names := by
  have hcomponents := components_under hnames hne hdirectory hbreaks
  unfold relativeTo
  split_ifs with hcurrent
  · -- the directory keeps a `.` that the path below it has lost
    have hnone : relativeTo.strip? directory.components (directory.under names).components =
        none := by
      refine Option.eq_none_iff_forall_ne_some.mpr fun rest hrest => ?_
      have hmem : Component.current ∈ (directory.under names).components := by
        rw [strip?_eq_some_iff.mp hrest]
        exact List.mem_append_left _ hcurrent
      rw [hcomponents] at hmem
      simp at hmem
    rw [hnone]
  · have hself : directory.components.filter (· ≠ .current) = directory.components := by
      refine List.filter_eq_self.mpr fun component hmem => ?_
      simpa using ne_of_mem_of_not_mem hmem hcurrent
    rw [hself] at hcomponents
    have htext : (names.map Component.name).map Component.text = names := by
      rw [List.map_map]
      exact List.map_id'' (fun _ => rfl) names
    rw [strip?_eq_some_iff.mpr hcomponents]
    exact congrArg "/".intercalate htext

/-- Different names below a directory have different paths. -/
lemma eq_of_components_under {names' : Location} (hnames' : ∀ name ∈ names', isName name = true)
    (hne' : names' ≠ [])
    (h : (directory.under names).components = (directory.under names').components) :
    names = names' := by
  rw [components_under hnames hne hdirectory hbreaks,
    components_under hnames' hne' hdirectory hbreaks] at h
  exact List.map_injective_iff.mpr (fun _ _ => Component.name.inj) (List.append_cancel_left h)

end

/-! ### A dot in front -/

/-- A path with `./` in front. -/
def dotted (path : Path) : Path := "./" ++ path

lemma dotted_ne_empty (path : Path) : path.dotted ≠ "" := by
  simp [dotted]

lemma pieces_dotted (path : Path) : path.dotted.pieces = "." :: path.pieces :=
  pieces_append_slash "." path

lemma isAbsolute_dotted (path : Path) : path.dotted.isAbsolute = false := by
  simp [isAbsolute, pieces_dotted]

lemma current_mem_components_dotted (path : Path) :
    Component.current ∈ path.dotted.components := by
  rw [components_eq (dotted_ne_empty path) (pieces_dotted path)]
  exact List.mem_append_left _ (List.mem_singleton_self _)

lemma breaksOff_dotted {path : Path} (hrelative : path.isAbsolute = false) :
    path.dotted.breaksOff = path.breaksOff := by
  rw [breaksOff, breaksOff, isAbsolute_dotted, hrelative, pieces_dotted]
  rfl

section

variable {path : Path} (hpath : path ≠ "") (hrelative : path.isAbsolute = false)

include hpath hrelative

lemma under_dotted (names : Location) : path.dotted.under names = path.under names := by
  have hkept : path.dotted.keptPieces = path.keptPieces := by
    have hpieces := pieces_of_not_isAbsolute (dotted_ne_empty path) (isAbsolute_dotted path)
    rw [keptPieces_of_relative hpieces, pieces_dotted,
      keptPieces_of_relative (pieces_of_not_isAbsolute hpath hrelative)]
    rfl
  rw [under, under, hkept, isAbsolute_dotted, hrelative]

lemma breaksOff_of_head? (hhead : path.pieces.head? ≠ some ".") : path.breaksOff = false := by
  obtain ⟨first, rest, hpieces⟩ := List.exists_cons_of_ne_nil (pieces_ne_nil path)
  have hdot : first ≠ "." := by simpa [hpieces] using hhead
  have hempty : first ≠ "" := by
    rintro rfl
    exact pieces_of_not_isAbsolute hpath hrelative rest hpieces
  have hdrop : (first :: rest).dropWhile (· == ".") = first :: rest := by simp [hdot]
  rw [breaksOff, hpieces, hdrop]
  split
  · rename_i h
    exact absurd (List.cons.inj h).1 hempty
  · exact Bool.and_false _

end

end Path

namespace FileSystem

variable {fs : FileSystem} {path : Path} {location : Location}

lemma ne_empty_of_directoryAt? (h : fs.directoryAt? path = some location) : path ≠ "" :=
  ne_empty_of_locate (directoryAt?_eq_some_iff.mp h).1

/-- `./` in front of a relative path leads nowhere else. -/
lemma directoryAt?_dotted (hrelative : path.isAbsolute = false)
    (h : fs.directoryAt? path = some location) : fs.directoryAt? path.dotted = some location := by
  obtain ⟨hlocate, hdirectory⟩ := directoryAt?_eq_some_iff.mp h
  refine directoryAt?_eq_some_iff.mpr ⟨?_, hdirectory⟩
  obtain ⟨first, rest, hpieces⟩ := List.exists_cons_of_ne_nil (Path.pieces_ne_nil path)
  have hstart : fs.start path.dotted = fs.start path := by
    rw [start, Path.isAbsolute_dotted, start, hrelative]
  rw [locate_eq (ne_empty_of_locate hlocate), hpieces] at hlocate
  rw [locate_eq (Path.dotted_ne_empty path), Path.pieces_dotted, hstart, hpieces]
  exact follow_cons_eq_ok_iff.mpr ⟨(follow_cons_eq_ok_iff.mp hlocate).1, hlocate⟩

end FileSystem

namespace Discovery

open Concise.Path (Component)

variable {settings : Settings} {fs : FileSystem}

/-! ### The files of a directory -/

/-- Names that lead from a directory down to a file with a wanted extension. -/
@[mk_iff]
structure IsWanted (settings : Settings) (fs : FileSystem) (directory : Path)
    (location names : Location) : Prop where
  ne_nil : names ≠ []
  isFile : (fs.contentAt? (location ++ names)).isSome = true
  accepted : settings.accepts (directory.under names) = true

section

variable (htree : fs.IsTree) {directory : Path} {location : Location}
  (hdirectory : fs.directoryAt? directory = some location)
  (hbreaks : directory.breaksOff = false)

include htree hdirectory hbreaks

/-- Wanted files with the same path are the same. -/
lemma IsWanted.eq_of_components {names names' : Location}
    (h : IsWanted settings fs directory location names)
    (h' : IsWanted settings fs directory location names')
    (hsame : (directory.under names).components = (directory.under names').components) :
    names = names' :=
  Path.eq_of_components_under (htree.isName_of_contentAt? h.isFile) h.ne_nil
    (FileSystem.ne_empty_of_directoryAt? hdirectory) hbreaks
    (htree.isName_of_contentAt? h'.isFile) h'.ne_nil hsame

lemma IsWanted.relativeTo_eq {names : Location}
    (h : IsWanted settings fs directory location names) :
    (directory.under names).relativeTo directory =
      if Component.current ∈ directory.components then directory.under names
      else "/".intercalate names :=
  Path.relativeTo_under (htree.isName_of_contentAt? h.isFile) h.ne_nil
    (FileSystem.ne_empty_of_directoryAt? hdirectory) hbreaks

lemma standsFor_directory_iff {file : Path} : StandsFor settings fs directory file ↔
    ∃ names, IsWanted settings fs directory location names ∧ directory.under names = file ∧
      settings.ignores (file.relativeTo directory) = false := by
  constructor
  · intro h
    cases h with
    | file hfile =>
        have htarget : target fs directory = .file := if_pos hfile
        rw [target_of_directoryAt? htree hdirectory] at htarget
        cases htarget
    | below hplace _ hne hfile hextension hwanted hkept =>
        obtain rfl := Option.some.inj (hdirectory.symm.trans hplace)
        exact ⟨_, ⟨hne, hfile, accepts_iff.mpr ⟨_, hextension, hwanted⟩⟩, rfl,
          ignores_eq_false_iff.mpr hkept⟩
  · rintro ⟨names, hwanted, rfl, hkept⟩
    obtain ⟨extension, hextension, hmem⟩ := accepts_iff.mp hwanted.accepted
    exact .below hdirectory hbreaks hwanted.ne_nil hwanted.isFile hextension hmem
      (ignores_eq_false_iff.mp hkept)

/-- **The files for which a directory stands**, each spelled as the directory and its path below. -/
lemma mem_sorted_expand {file : Path} : file ∈ sorted (expand settings fs directory) ↔
    ∃ names, IsWanted settings fs directory location names ∧ directory.under names = file ∧
      settings.ignores (file.relativeTo directory) = false := by
  have hmem : ∀ {path}, path ∈ expand settings fs directory ↔ _ :=
    (mem_expand htree).trans (standsFor_directory_iff htree hdirectory hbreaks)
  constructor
  · exact fun h => hmem.mp (sorted_subset _ h)
  · intro h
    obtain ⟨other, hother, hsame⟩ := exists_mem_sorted (hmem.mpr h)
    obtain ⟨names, hwanted, rfl, -⟩ := h
    obtain ⟨names', hwanted', rfl, -⟩ := hmem.mp (sorted_subset _ hother)
    obtain rfl := hwanted'.eq_of_components htree hdirectory hbreaks hwanted hsame
    exact hother

end

/-! ### Collecting from a directory -/

instance : Std.Irrefl fun a b : Path => a.compare b = .lt where
  irrefl a := Std.Irrefl.irrefl (r := fun a b => Path.compareComponents a b = .lt) a.components

instance : Std.Antisymm fun a b : Path => a.compare b = .lt where
  antisymm a b hab hba := by
    rw [Path.compare_swap, hba] at hab
    cases hab

lemma IsIncreasing.eq_of_mem_iff {files others : List Path} (h : IsIncreasing files)
    (h' : IsIncreasing others) (hmem : ∀ file, file ∈ files ↔ file ∈ others) : files = others :=
  List.Pairwise.eq_of_mem_iff h h' hmem

/-- A directory alone stands for its own files. -/
lemma collect_directory (htree : fs.IsTree) {directory : Path} {location : Location}
    (hdirectory : fs.directoryAt? directory = some location) :
    collect settings fs [directory] = .ok (sorted (expand settings fs directory)) := by
  have hthere : ∀ argument ∈ [directory], fs.contains argument = true := by
    simp [FileSystem.contains, hdirectory]
  rw [collect_eq_ok htree hthere, List.flatMap_singleton]

section

variable (htree : fs.IsTree) {directory : Path} {location : Location}
  (hdirectory : fs.directoryAt? directory = some location)
  (hrelative : directory.isAbsolute = false)

include htree hdirectory hrelative

/-- The patterns are matched against the path below a directory that does not begin with `.`. -/
lemma mem_sorted_expand_plain (hhead : directory.pieces.head? ≠ some ".") {file : Path} :
    file ∈ sorted (expand settings fs directory) ↔
      ∃ names, IsWanted settings fs directory location names ∧ directory.under names = file ∧
        settings.ignores ("/".intercalate names) = false := by
  have hempty := FileSystem.ne_empty_of_directoryAt? hdirectory
  have hbreaks := Path.breaksOff_of_head? hempty hrelative hhead
  rw [mem_sorted_expand htree hdirectory hbreaks]
  refine exists_congr fun names => and_congr_right fun hwanted => and_congr_right ?_
  rintro rfl
  rw [hwanted.relativeTo_eq htree hdirectory hbreaks,
    if_neg (Path.current_not_mem_components hhead)]

/-- With `./` in front of the directory they are matched against the whole path. -/
lemma mem_sorted_expand_dotted (hhead : directory.pieces.head? ≠ some ".") {file : Path} :
    file ∈ sorted (expand settings fs directory.dotted) ↔
      ∃ names, IsWanted settings fs directory location names ∧ directory.under names = file ∧
        settings.ignores file = false := by
  have hempty := FileSystem.ne_empty_of_directoryAt? hdirectory
  have hdotted := FileSystem.directoryAt?_dotted hrelative hdirectory
  have hbreaks : directory.dotted.breaksOff = false := by
    rw [Path.breaksOff_dotted hrelative, Path.breaksOff_of_head? hempty hrelative hhead]
  have hunder := Path.under_dotted hempty hrelative
  have hwanted : ∀ names, IsWanted settings fs directory.dotted location names ↔
      IsWanted settings fs directory location names := by
    intro names
    rw [isWanted_iff, isWanted_iff, hunder]
  rw [mem_sorted_expand htree hdotted hbreaks]
  refine exists_congr fun names => ?_
  rw [← hunder, ← hwanted]
  refine and_congr_right fun hwanted => and_congr_right ?_
  rintro rfl
  rw [hwanted.relativeTo_eq htree hdotted hbreaks,
    if_pos (Path.current_mem_components_dotted _)]

/-- **A directory with and without `./` in front.** Let a relative directory not begin with `.`.
What is collected from it are the wanted files below it whose path below the directory no pattern
matches. With `./` in front it is the wanted files whose whole path no pattern matches. So the two
are the same exactly if the patterns do not tell the two paths of a wanted file apart. -/
theorem collect_dotted (settings : Settings) (hhead : directory.pieces.head? ≠ some ".") :
    ∃ files dotted, collect settings fs [directory] = .ok files ∧
      collect settings fs [directory.dotted] = .ok dotted ∧
      (∀ file, file ∈ files ↔ ∃ names, IsWanted settings fs directory location names ∧
        directory.under names = file ∧ settings.ignores ("/".intercalate names) = false) ∧
      (∀ file, file ∈ dotted ↔ ∃ names, IsWanted settings fs directory location names ∧
        directory.under names = file ∧ settings.ignores file = false) ∧
      (files = dotted ↔ ∀ names, IsWanted settings fs directory location names →
        settings.ignores ("/".intercalate names) = settings.ignores (directory.under names)) := by
  have hfiles := @mem_sorted_expand_plain settings fs htree _ _ hdirectory hrelative hhead
  have hdotted := @mem_sorted_expand_dotted settings fs htree _ _ hdirectory hrelative hhead
  have hempty := FileSystem.ne_empty_of_directoryAt? hdirectory
  have hbreaks := Path.breaksOff_of_head? hempty hrelative hhead
  refine ⟨_, _, collect_directory htree hdirectory,
    collect_directory htree (FileSystem.directoryAt?_dotted hrelative hdirectory),
    fun _ => hfiles, fun _ => hdotted, ?_, ?_⟩
  · intro heq names hwanted
    have hmem : directory.under names ∈ sorted (expand settings fs directory) ↔
        settings.ignores ("/".intercalate names) = false := by
      rw [hfiles]
      constructor
      · rintro ⟨names', hwanted', hunder, hkept⟩
        obtain rfl := hwanted'.eq_of_components htree hdirectory hbreaks hwanted
          (congrArg Path.components hunder)
        exact hkept
      · exact fun hkept => ⟨names, hwanted, rfl, hkept⟩
    have hmem' : directory.under names ∈ sorted (expand settings fs directory.dotted) ↔
        settings.ignores (directory.under names) = false := by
      rw [hdotted]
      exact ⟨fun ⟨_, _, _, hkept⟩ => hkept, fun hkept => ⟨names, hwanted, rfl, hkept⟩⟩
    rw [heq, hmem'] at hmem
    rw [Bool.eq_iff_iff, ← not_iff_not, Bool.not_eq_true, Bool.not_eq_true]
    exact hmem.symm
  · intro hsame
    refine (isIncreasing_sorted _).eq_of_mem_iff (isIncreasing_sorted _) fun file => ?_
    rw [hfiles, hdotted]
    refine exists_congr fun names => and_congr_right fun hwanted => and_congr_right ?_
    rintro rfl
    rw [hsame names hwanted]

end

/-- A directory that holds what was built from it. -/
def builtTree : FileSystem where
  files := [(["work", "src", "a.js"], .text ""), (["work", "src", "dist", "out.js"], .text "")]
  directories := [["work"], ["work", "src"], ["work", "src", "dist"]]
  workingDirectory := ["work"]

lemma isTree_builtTree : builtTree.IsTree := by
  refine ⟨?_, ?_, ?_, ?_⟩ <;> decide

/-- The default settings, and what was built is left out. -/
def sourcesOnly : Settings :=
  { Settings.default with
    ignored := Settings.defaultIgnored ++ (Glob.parse "dist/**").toOption.toList }

/-- Both spellings of a directory stand for the source in it, but not for the same files. -/
theorem collect_dotted_builtTree :
    builtTree.IsTree ∧ builtTree.directoryAt? "src" = some ["work", "src"] ∧
      ∃ files dotted, collect sourcesOnly builtTree ["src"] = .ok files ∧
        collect sourcesOnly builtTree ["./src"] = .ok dotted ∧
        "src/a.js" ∈ files ∧ "src/a.js" ∈ dotted ∧ files ≠ dotted := by
  have hdirectory : builtTree.directoryAt? "src" = some ["work", "src"] := by decide +kernel
  obtain ⟨files, dotted, hfiles, hdotted, hmem, hmem', hsame⟩ :=
    collect_dotted isTree_builtTree hdirectory (by decide +kernel) sourcesOnly (by decide +kernel)
  have hsource : IsWanted sourcesOnly builtTree "src" ["work", "src"] ["a.js"] :=
    ⟨by decide, by decide, by decide +kernel⟩
  have hbuilt : IsWanted sourcesOnly builtTree "src" ["work", "src"] ["dist", "out.js"] :=
    ⟨by decide, by decide, by decide +kernel⟩
  refine ⟨isTree_builtTree, hdirectory, files, dotted, hfiles, hdotted, ?_, ?_, ?_⟩
  · exact (hmem _).mpr ⟨_, hsource, by decide +kernel, by decide +kernel⟩
  · exact (hmem' _).mpr ⟨_, hsource, by decide +kernel, by decide +kernel⟩
  · intro heq
    have hagree := hsame.mp heq _ hbuilt
    revert hagree
    decide +kernel

/-- A pattern for a path below a directory leaves a file out, unless the directory is spelled with
`./` in front. -/
theorem collect_twice_spelled :
    builtTree.directoryAt? "src" = builtTree.directoryAt? "./src" ∧
      collect sourcesOnly builtTree ["src"] = .ok ["src/a.js"] ∧
      collect sourcesOnly builtTree ["./src"] = .ok ["src/a.js", "src/dist/out.js"] := by
  have hfiles : expand sourcesOnly builtTree "src" = ["src/a.js"] := by decide +kernel
  have hdotted : expand sourcesOnly builtTree "./src" = ["src/a.js", "src/dist/out.js"] := by
    decide +kernel
  have horder : Path.compare "src/a.js" "src/dist/out.js" = .lt := by decide +kernel
  have hsame : Path.isSame "src/a.js" "src/dist/out.js" = false := by decide +kernel
  refine ⟨by decide +kernel, ?_, ?_⟩
  · rw [collect_eq_ok isTree_builtTree (by decide +kernel), List.flatMap_singleton, hfiles]
    simp [sorted, dropRepeats, dropRepeats.after]
  · rw [collect_eq_ok isTree_builtTree (by decide +kernel), List.flatMap_singleton, hdotted]
    simp [sorted, List.mergeSort, dropRepeats, dropRepeats.after, horder, hsame]

end Discovery

end Concise
