import Mathlib.Data.List.Sort
import Concise.Proofs.Walking

/-!
The files that arguments stand for.

* `Discovery.StandsFor` says for which files an argument stands, and how they are spelled.
* `Discovery.collect_exact`: collecting fails with the first argument that is nothing, and otherwise
  gives exactly those files, each once, in the order of paths. The order of the arguments and their
  repetitions do not matter.
* `Discovery.collect_apart`: two paths that were collected lead to different files, unless they
  differ in where they begin or one of them keeps a `.` or a `..`.
-/

namespace Concise

/-- Whether a path leads to a file or to a directory. -/
def FileSystem.contains (fs : FileSystem) (path : Path) : Bool :=
  (fs.fileAt? path).isSome || (fs.directoryAt? path).isSome

namespace Discovery

open Concise.Path (Component)

/-! ### Sorting -/

/-- Paths one after the other in the order of paths. -/
def IsIncreasing (paths : List Path) : Prop := paths.Pairwise fun a b => a.compare b = .lt

/-- What stays after a path is greater than it, and increases. -/
lemma isIncreasing_after {last : Path} {paths : List Path}
    (h : (last :: paths).Pairwise fun a b => (a.compare b).isLE) :
    IsIncreasing (last :: dropRepeats.after last paths) := by
  induction paths generalizing last with
  | nil => exact List.pairwise_singleton _ _
  | cons path rest ih =>
      obtain ⟨hlast, hrest⟩ := List.pairwise_cons.mp h
      rw [dropRepeats.after]
      split
      · exact ih (h.sublist ((List.sublist_cons_self _ _).cons_cons _))
      · rename_i hsame
        have hlt : last.compare path = .lt :=
          Path.compare_lt_of_isLE (hlast path List.mem_cons_self)
            fun h => hsame (Path.isSame_iff.mpr h)
        refine List.pairwise_cons.mpr ⟨?_, ih hrest⟩
        intro next hnext
        rcases List.mem_cons.mp hnext with rfl | hnext
        · exact hlt
        · exact Path.compare_lt_trans hlt ((List.pairwise_cons.mp (ih hrest)).1 next hnext)

lemma isIncreasing_sorted (paths : List Path) : IsIncreasing (sorted paths) := by
  have horder : (paths.mergeSort fun a b => (a.compare b).isLE).Pairwise
      fun a b => (a.compare b).isLE := by
    refine List.pairwise_mergeSort ?_ Path.compare_isLE_total paths
    exact fun _ _ _ hab hbc => Path.compare_isLE_trans hab hbc
  rw [sorted]
  revert horder
  cases paths.mergeSort fun a b => (a.compare b).isLE with
  | nil => exact fun _ => List.Pairwise.nil
  | cons path rest => exact isIncreasing_after

lemma after_subset (last : Path) (paths : List Path) : dropRepeats.after last paths ⊆ paths := by
  induction paths generalizing last with
  | nil => exact List.Subset.refl _
  | cons path rest ih =>
      rw [dropRepeats.after]
      split
      · exact List.Subset.trans (ih last) (List.subset_cons_self _ _)
      · exact List.cons_subset_cons path (ih path)

/-- Of equal paths one stays. -/
lemma exists_mem_after {last path : Path} {paths : List Path} (h : path ∈ last :: paths) :
    ∃ file ∈ last :: dropRepeats.after last paths, file.components = path.components := by
  induction paths generalizing last with
  | nil => exact ⟨path, h, rfl⟩
  | cons next rest ih =>
      rw [dropRepeats.after]
      split
      · rename_i hsame
        rcases List.mem_cons.mp h with rfl | h
        · exact ⟨path, List.mem_cons_self, rfl⟩
        rcases List.mem_cons.mp h with rfl | h
        · exact ⟨last, List.mem_cons_self, Path.isSame_iff.mp hsame⟩
        · exact ih (List.mem_cons_of_mem _ h)
      · rcases List.mem_cons.mp h with rfl | h
        · exact ⟨path, List.mem_cons_self, rfl⟩
        · obtain ⟨file, hfile, hsame⟩ := ih h
          exact ⟨file, List.mem_cons_of_mem _ hfile, hsame⟩

lemma sorted_subset (paths : List Path) : sorted paths ⊆ paths := by
  have hmem : ∀ file ∈ paths.mergeSort fun a b => (a.compare b).isLE, file ∈ paths :=
    fun _ => List.mem_mergeSort.mp
  intro file
  rw [sorted]
  revert hmem
  cases paths.mergeSort fun a b => (a.compare b).isLE with
  | nil => exact fun _ h => absurd h List.not_mem_nil
  | cons path rest =>
      exact fun hmem h => hmem file (List.cons_subset_cons path (after_subset path rest) h)

lemma exists_mem_sorted {paths : List Path} {path : Path} (h : path ∈ paths) :
    ∃ file ∈ sorted paths, file.components = path.components := by
  have hmem : path ∈ paths.mergeSort fun a b => (a.compare b).isLE := List.mem_mergeSort.mpr h
  revert hmem
  rw [sorted]
  cases paths.mergeSort fun a b => (a.compare b).isLE with
  | nil => exact fun h => absurd h List.not_mem_nil
  | cons first rest => exact exists_mem_after

instance : Std.Irrefl fun a b : List Component => Path.compareComponents a b = .lt where
  irrefl a h := by
    have heq : Path.compareComponents a a = .eq := Std.ReflCmp.compare_self
    rw [heq] at h
    cases h

instance : Std.Antisymm fun a b : List Component => Path.compareComponents a b = .lt where
  antisymm a b hab hba := by
    have hswap : Path.compareComponents a b = (Path.compareComponents b a).swap :=
      Std.OrientedCmp.eq_swap
    rw [hswap, hba] at hab
    cases hab

/-- Sorting depends only on which paths there are. -/
lemma map_components_sorted {paths others : List Path} (h : ∀ path, path ∈ paths ↔ path ∈ others) :
    (sorted paths).map Path.components = (sorted others).map Path.components := by
  have hsubset : ∀ {ps qs : List Path}, (∀ path ∈ ps, path ∈ qs) →
      ∀ components ∈ (sorted ps).map Path.components,
        components ∈ (sorted qs).map Path.components := by
    intro ps qs hpaths components hcomponents
    obtain ⟨file, hfile, rfl⟩ := List.mem_map.mp hcomponents
    obtain ⟨other, hother, hsame⟩ := exists_mem_sorted (hpaths file (sorted_subset ps hfile))
    exact List.mem_map.mpr ⟨other, hother, hsame⟩
  refine List.Pairwise.eq_of_mem_iff (r := fun a b => Path.compareComponents a b = .lt)
    (List.pairwise_map.mpr (isIncreasing_sorted paths))
    (List.pairwise_map.mpr (isIncreasing_sorted others)) fun components => ?_
  exact ⟨hsubset (fun path => (h path).mp) components,
    hsubset (fun path => (h path).mpr) components⟩

/-! ### What an argument stands for -/

/-- The files for which an argument stands. -/
inductive StandsFor (settings : Settings) (fs : FileSystem) (argument : Path) : Path → Prop where
  /-- A file stands for itself. -/
  | file (hfile : (fs.fileAt? argument).isSome = true) : StandsFor settings fs argument argument
  /-- A directory stands for the files below it that have a wanted extension and that no pattern
  leaves out. -/
  | below {location names : Location} {extension : String}
      (hdirectory : fs.directoryAt? argument = some location)
      (hspelled : argument.breaksOff = false)
      (hnames : names ≠ [])
      (hfile : (fs.contentAt? (location ++ names)).isSome = true)
      (hextension : (argument.under names).extension? = some extension)
      (hwanted : extension ∈ settings.extensions)
      (hkept : ∀ glob ∈ settings.ignored,
        glob.matchesPath ((argument.under names).relativeTo argument) = false) :
      StandsFor settings fs argument (argument.under names)

/-- The files that an argument stands for, as they are met. -/
def expand (settings : Settings) (fs : FileSystem) (argument : Path) : List Path :=
  match target fs argument with
  | .missing => []
  | .file => [argument]
  | .directory => (search settings fs argument).2.toOption.getD []

variable {settings : Settings} {fs : FileSystem}

lemma contains_eq (argument : Path) : fs.contains argument = (target fs argument != .missing) := by
  unfold target FileSystem.contains
  cases fs.fileAt? argument <;> cases fs.directoryAt? argument <;> rfl

lemma fileAt?_of_target {argument : Path} (h : target fs argument = .file) :
    (fs.fileAt? argument).isSome = true := by
  unfold target at h
  split at h
  · assumption
  · split at h <;> cases h

lemma directoryAt?_of_target {argument : Path} (h : target fs argument = .directory) :
    ∃ location, fs.directoryAt? argument = some location := by
  unfold target at h
  split at h
  · cases h
  · split at h
    · rename_i hdirectory
      exact Option.isSome_iff_exists.mp hdirectory
    · cases h

/-- In a tree a path leads to a file or to a directory, not to both. -/
lemma target_of_directoryAt? (htree : fs.IsTree) {argument : Path} {location : Location}
    (h : fs.directoryAt? argument = some location) : target fs argument = .directory := by
  have hnone : fs.fileAt? argument = none := by
    rw [Option.eq_none_iff_forall_ne_some]
    intro place hplace
    obtain ⟨hlocate, hdirectory⟩ := FileSystem.directoryAt?_eq_some_iff.mp h
    obtain ⟨hlocate', hfile⟩ := FileSystem.fileAt?_eq_some_iff.mp hplace
    obtain rfl : location = place := Except.ok.inj (hlocate.symm.trans hlocate')
    obtain ⟨file, hmem, rfl⟩ := FileSystem.contentAt?_isSome_iff.mp hfile
    rw [htree.apart file hmem] at hdirectory
    cases hdirectory
  simp [target, hnone, h]

lemma accepts_iff {path : Path} : settings.accepts path = true ↔
    ∃ extension, path.extension? = some extension ∧ extension ∈ settings.extensions := by
  unfold Settings.accepts
  cases path.extension? <;> simp

lemma ignores_eq_false_iff {path : Path} : settings.ignores path = false ↔
    ∀ glob ∈ settings.ignored, glob.matchesPath path = false := by
  simp [Settings.ignores]

/-- If every directory could be listed, the wanted files that are not left out are kept. -/
lemma exists_sift (argument : Path) {met : List (Except Walk.Fault Walk.Entry)}
    (hmet : ∀ item ∈ met, ∃ entry, item = .ok entry) :
    ∃ files, (sift settings fs argument met).2 = .ok files ∧ ∀ path, path ∈ files ↔
      ∃ entry, .ok entry ∈ met ∧ isAccepted settings fs entry = true ∧
        isIgnored settings argument entry.path = false ∧ path = entry.path := by
  induction met with
  | nil => exact ⟨[], rfl, by simp⟩
  | cons item met ih =>
      obtain ⟨entry, rfl⟩ := hmet item List.mem_cons_self
      obtain ⟨files, hfiles, hmem⟩ := ih fun item h => hmet item (List.mem_cons_of_mem _ h)
      rw [sift]
      cases hwanted : isAccepted settings fs entry with
      | false =>
          refine ⟨files, by simpa using hfiles, fun path => ?_⟩
          simp [hmem, hwanted, or_and_right, exists_or]
      | true =>
          cases hignored : isIgnored settings argument entry.path with
          | true =>
              refine ⟨files, by simpa using hfiles, fun path => ?_⟩
              simp [hmem, hignored, or_and_right, exists_or]
          | false =>
              refine ⟨entry.path :: files, by simp [hfiles, Except.map], fun path => ?_⟩
              simp [hmem, hwanted, hignored, or_and_right, exists_or]

/-- **What is found below a directory.** -/
lemma exists_search (htree : fs.IsTree) {argument : Path} {location : Location}
    (hdirectory : fs.directoryAt? argument = some location) :
    ∃ files, (search settings fs argument).2 = .ok files ∧ ∀ path, path ∈ files ↔
      argument.breaksOff = false ∧ ∃ names, names ≠ [] ∧
        (fs.contentAt? (location ++ names)).isSome = true ∧
        settings.accepts (argument.under names) = true ∧
        isIgnored settings argument (argument.under names) = false ∧
        argument.under names = path := by
  obtain ⟨met, halong, hok, hmet⟩ := Walk.along_patternBelow htree hdirectory
  obtain ⟨files, hfiles, hmem⟩ := @exists_sift settings fs argument met hok
  have hsearch : search settings fs argument = sift settings fs argument met := by
    rw [search, halong]
  refine ⟨files, by rw [hsearch, hfiles], fun path => ?_⟩
  rw [hmem]
  constructor
  · rintro ⟨entry, hentry, hwanted, hignored, rfl⟩
    obtain ⟨hfile, haccepts⟩ := Bool.and_eq_true_iff.mp hwanted
    obtain ⟨hbreaks, names, hne, hfile, rfl⟩ := (hmet entry).mp ⟨hentry, hfile⟩
    exact ⟨hbreaks, names, hne, hfile, haccepts, hignored, rfl⟩
  · rintro ⟨hbreaks, names, hne, hfile, haccepts, hignored, rfl⟩
    obtain ⟨hentry, -⟩ := (hmet _).mpr ⟨hbreaks, names, hne, hfile, rfl⟩
    exact ⟨_, hentry, Bool.and_eq_true_iff.mpr ⟨hfile, haccepts⟩, hignored, rfl⟩

/-- Gathering stops at the first argument that is nothing, and else expands all of them. -/
lemma gather_eq (htree : fs.IsTree) (arguments : List Path) :
    (gather settings fs arguments).2 =
      match arguments.find? (!fs.contains ·) with
      | some argument => .error (.missing argument)
      | none => .ok (arguments.flatMap (expand settings fs)) := by
  induction arguments with
  | nil => rfl
  | cons argument rest ih =>
      rw [gather, List.find?_cons, List.flatMap_cons]
      cases htarget : target fs argument with
      | missing =>
          have hcontains : fs.contains argument = false := by rw [contains_eq, htarget]; rfl
          simp [hcontains]
      | file =>
          have hcontains : fs.contains argument = true := by rw [contains_eq, htarget]; rfl
          simp only [hcontains, ih, expand, htarget, Bool.not_true]
          cases rest.find? (!fs.contains ·) <;> rfl
      | directory =>
          have hcontains : fs.contains argument = true := by rw [contains_eq, htarget]; rfl
          obtain ⟨location, hdirectory⟩ := directoryAt?_of_target htarget
          obtain ⟨files, hfiles, -⟩ := @exists_search settings fs htree _ _ hdirectory
          have hsearch : search settings fs argument =
              ((search settings fs argument).1, .ok files) := by
            rw [← hfiles]
          simp only [hcontains, expand, htarget, Bool.not_true]
          rw [hsearch]
          simp only [ih]
          cases rest.find? (!fs.contains ·) <;> rfl

/-- An argument is expanded to the files for which it stands. -/
lemma mem_expand (htree : fs.IsTree) {argument path : Path} :
    path ∈ expand settings fs argument ↔ StandsFor settings fs argument path := by
  constructor
  · intro h
    unfold expand at h
    split at h
    · cases h
    · rename_i htarget
      obtain rfl := List.mem_singleton.mp h
      exact .file (fileAt?_of_target htarget)
    · rename_i htarget
      obtain ⟨location, hdirectory⟩ := directoryAt?_of_target htarget
      obtain ⟨files, hfiles, hmem⟩ := @exists_search settings fs htree _ _ hdirectory
      rw [hfiles] at h
      obtain ⟨hspelled, names, hne, hfile, haccepts, hkept, rfl⟩ := (hmem path).mp h
      obtain ⟨extension, hextension, hwanted⟩ := accepts_iff.mp haccepts
      exact .below hdirectory hspelled hne hfile hextension hwanted (ignores_eq_false_iff.mp hkept)
  · intro h
    unfold expand
    cases h with
    | file hfile =>
        have htarget : target fs argument = .file := if_pos hfile
        rw [htarget]
        exact List.mem_singleton_self _
    | below hdirectory hspelled hne hfile hextension hwanted hkept =>
        obtain ⟨files, hfiles, hmem⟩ := @exists_search settings fs htree _ _ hdirectory
        rw [target_of_directoryAt? htree hdirectory]
        simp only [hfiles]
        exact (hmem _).mpr ⟨hspelled, _, hne, hfile, accepts_iff.mpr ⟨_, hextension, hwanted⟩,
          ignores_eq_false_iff.mpr hkept, rfl⟩

/-! ### Collecting -/

lemma find?_eq_none_iff {arguments : List Path} :
    arguments.find? (!fs.contains ·) = none ↔
      ∀ argument ∈ arguments, fs.contains argument = true := by
  simp

/-- If every argument is something, the files that they stand for are collected. -/
lemma collect_eq_ok (htree : fs.IsTree) {arguments : List Path}
    (h : ∀ argument ∈ arguments, fs.contains argument = true) :
    collect settings fs arguments = .ok (sorted (arguments.flatMap (expand settings fs))) := by
  rw [collect, gather_eq htree, find?_eq_none_iff.mpr h]
  rfl

lemma exists_standsFor (htree : fs.IsTree) {arguments : List Path} {file : Path}
    (h : file ∈ sorted (arguments.flatMap (expand settings fs))) :
    ∃ argument ∈ arguments, StandsFor settings fs argument file := by
  obtain ⟨argument, hargument, hfile⟩ := List.mem_flatMap.mp (sorted_subset _ h)
  exact ⟨argument, hargument, (mem_expand htree).mp hfile⟩

/-- **What is collected.** The first argument that is neither a file nor a directory is an error. If
there is none, the result holds exactly the files for which the arguments stand, each once and in
the order of paths; neither the order of the arguments nor their number matters. -/
theorem collect_exact (htree : fs.IsTree) (settings : Settings) (arguments : List Path) :
    (∀ argument, arguments.find? (!fs.contains ·) = some argument →
      collect settings fs arguments = .error (.missing argument)) ∧
    ((∀ argument ∈ arguments, fs.contains argument = true) →
      ∃ files, collect settings fs arguments = .ok files ∧ IsIncreasing files ∧
        (∀ file ∈ files, ∃ argument ∈ arguments, StandsFor settings fs argument file) ∧
        (∀ argument ∈ arguments, ∀ path, StandsFor settings fs argument path →
          ∃ file ∈ files, file.isSame path = true) ∧
        ∀ others : List Path, (∀ argument, argument ∈ others ↔ argument ∈ arguments) →
          ∃ files', collect settings fs others = .ok files' ∧
            files'.map Path.components = files.map Path.components) := by
  constructor
  · intro argument hmissing
    rw [collect, gather_eq htree, hmissing]
    rfl
  · intro hthere
    refine ⟨_, collect_eq_ok htree hthere, isIncreasing_sorted _,
      fun file => exists_standsFor htree, ?_, ?_⟩
    · intro argument hargument path hpath
      obtain ⟨file, hfile, hsame⟩ :=
        exists_mem_sorted (List.mem_flatMap.mpr ⟨argument, hargument, (mem_expand htree).mpr hpath⟩)
      exact ⟨file, hfile, Path.isSame_iff.mpr hsame⟩
    · intro others hothers
      refine ⟨_, collect_eq_ok htree fun argument h => hthere argument ((hothers argument).mp h),
        map_components_sorted fun path => ?_⟩
      simp only [List.mem_flatMap, hothers]

/-- A small tree: two files in the working directory and two in a directory below it. -/
def sampleTree : FileSystem where
  files := [(["work", "a.js"], .text ""), (["work", "notes.md"], .text ""),
    (["work", "src", "b.js"], .text ""), (["work", "src", "c.ts"], .text "")]
  directories := [["work"], ["work", "src"]]
  workingDirectory := ["work"]

lemma isTree_sampleTree : sampleTree.IsTree := by
  refine ⟨?_, ?_, ?_, ?_⟩ <;> decide

/-- Of two paths that lead nowhere the first is named. A file that is given and that also lies below
a directory given twice is collected. -/
theorem collect_exact_sampleTree :
    sampleTree.IsTree ∧
      collect Settings.default sampleTree ["src", "d.js", "e.js"] =
        .error (.missing "d.js") ∧
      ∃ files, collect Settings.default sampleTree ["src/b.js", "./src", "src"] = .ok files ∧
        IsIncreasing files ∧ ∃ file ∈ files, file.isSame "src/b.js" = true := by
  have hmissing :=
    (collect_exact isTree_sampleTree Settings.default ["src", "d.js", "e.js"]).1 "d.js"
      (by decide +kernel)
  obtain ⟨files, hfiles, hincreasing, -, hall, -⟩ :=
    (collect_exact isTree_sampleTree Settings.default ["src/b.js", "./src", "src"]).2
      (by decide +kernel)
  have hfile := hall "src/b.js" List.mem_cons_self _ (.file (by decide +kernel))
  exact ⟨isTree_sampleTree, hmissing, files, hfiles, hincreasing, hfile⟩

/-- A directory that is spelled with two slashes after `.` stands for nothing, although a file with
a wanted extension is below it. -/
theorem collect_breaksOff :
    sampleTree.directoryAt? ".//src" = some ["work", "src"] ∧
      (sampleTree.contentAt? ["work", "src", "b.js"]).isSome = true ∧
      Settings.default.accepts "src/b.js" = true ∧
      isIgnored Settings.default ".//src" "src/b.js" = false ∧
      collect Settings.default sampleTree [".//src"] = .ok [] := by
  refine ⟨by decide +kernel, by decide, by decide +kernel, by decide +kernel, ?_⟩
  rw [collect_eq_ok isTree_sampleTree (by decide +kernel)]
  have hnothing : [".//src"].flatMap (expand Settings.default sampleTree) = [] := by decide +kernel
  rw [hnothing]
  simp [sorted, dropRepeats]

/-! ### Each file once -/

lemma StandsFor.fileAt?_isSome (htree : fs.IsTree) {argument path : Path}
    (h : StandsFor settings fs argument path) : (fs.fileAt? path).isSome = true := by
  cases h with
  | file hfile => exact hfile
  | below hdirectory hspelled hne hfile =>
      have hlocate := htree.locate_under (FileSystem.directoryAt?_eq_some_iff.mp hdirectory).1
        hspelled hne hfile
      rw [FileSystem.fileAt?_eq_some_iff.mpr ⟨hlocate, hfile⟩]
      rfl

/-- A file begins where its argument begins. -/
lemma StandsFor.isAbsolute (htree : fs.IsTree) {argument path : Path}
    (h : StandsFor settings fs argument path) : path.isAbsolute = argument.isAbsolute := by
  cases h with
  | file => rfl
  | below hdirectory hspelled hne hfile =>
      have hargument := FileSystem.ne_empty_of_locate
        (FileSystem.directoryAt?_eq_some_iff.mp hdirectory).1
      exact Path.isAbsolute_under (htree.isName_of_contentAt? hfile) hne hargument hspelled

/-- The walk of a directory drops `.`, so only a file can keep it. -/
lemma StandsFor.isDirect (htree : fs.IsTree) {argument path : Path}
    (h : StandsFor settings fs argument path)
    (hparent : Component.parent ∉ argument.components)
    (hcurrent : (fs.fileAt? argument).isSome = true → Component.current ∉ argument.components) :
    path.isDirect = true := by
  rw [Path.isDirect_iff]
  cases h with
  | file hfile => exact ⟨hcurrent hfile, hparent⟩
  | below hdirectory hspelled hne hfile =>
      have hargument := FileSystem.ne_empty_of_locate
        (FileSystem.directoryAt?_eq_some_iff.mp hdirectory).1
      rw [Path.components_under (htree.isName_of_contentAt? hfile) hne hargument hspelled]
      simp [hparent]

/-- Two paths of an increasing list that lead to the same file begin in different places, or one of
them keeps a `.` or a `..`. -/
lemma IsIncreasing.apart {files : List Path} (h : IsIncreasing files)
    (hfiles : ∀ file ∈ files, (fs.fileAt? file).isSome = true) :
    files.Pairwise fun a b => a.isDirect = true → b.isDirect = true →
      a.isAbsolute = b.isAbsolute → fs.fileAt? a ≠ fs.fileAt? b := by
  refine (List.Pairwise.and_mem.mp h).imp ?_
  intro a b ⟨ha, hb, hlt⟩ hdirect hdirect' hroot heq
  obtain ⟨location, hlocation⟩ := Option.isSome_iff_exists.mp (hfiles a ha)
  have hsame : a.components = b.components :=
    FileSystem.components_eq_of_locate (FileSystem.fileAt?_eq_some_iff.mp hlocation).1
      (FileSystem.fileAt?_eq_some_iff.mp (heq ▸ hlocation)).1 hdirect hdirect' hroot
  rw [Path.compare_eq_iff.mpr hsame] at hlt
  cases hlt

/-- **No file is collected twice, up to its spelling.** Every path that is collected leads to a
file. Two of them lead to the same file only if they begin in different places or if one of them
keeps a `.` or a `..`. This cannot be if all arguments begin in the same place, none of them goes
up, and those that are files do not begin with `.`. -/
theorem collect_apart (htree : fs.IsTree) (settings : Settings) {arguments : List Path}
    (hthere : ∀ argument ∈ arguments, fs.contains argument = true) :
    ∃ files, collect settings fs arguments = .ok files ∧
      (∀ file ∈ files, (fs.fileAt? file).isSome = true) ∧
      (files.Pairwise fun a b => fs.fileAt? a = fs.fileAt? b →
        a.isDirect = false ∨ b.isDirect = false ∨ a.isAbsolute ≠ b.isAbsolute) ∧
      ((∀ a ∈ arguments, ∀ b ∈ arguments, a.isAbsolute = b.isAbsolute) →
        (∀ argument ∈ arguments, Component.parent ∉ argument.components) →
        (∀ argument ∈ arguments, (fs.fileAt? argument).isSome = true →
          Component.current ∉ argument.components) →
        files.Pairwise fun a b => fs.fileAt? a ≠ fs.fileAt? b) := by
  have hstands := fun file => @exists_standsFor settings fs htree arguments file
  have hfiles : ∀ file ∈ sorted (arguments.flatMap (expand settings fs)),
      (fs.fileAt? file).isSome = true := by
    intro file hfile
    obtain ⟨argument, -, h⟩ := hstands file hfile
    exact h.fileAt?_isSome htree
  have happart := (isIncreasing_sorted (arguments.flatMap (expand settings fs))).apart hfiles
  refine ⟨_, collect_eq_ok htree hthere, hfiles, ?_, ?_⟩
  · refine happart.imp fun {a b} h heq => ?_
    by_contra hnot
    simp only [not_or, Bool.not_eq_false, ne_eq, not_not] at hnot
    exact h hnot.1 hnot.2.1 hnot.2.2 heq
  · intro hroot hparent hcurrent
    have hdirect : ∀ file ∈ sorted (arguments.flatMap (expand settings fs)),
        file.isDirect = true := by
      intro file hfile
      obtain ⟨argument, hargument, h⟩ := hstands file hfile
      exact h.isDirect htree (hparent argument hargument) (hcurrent argument hargument)
    have hsame : ∀ a ∈ sorted (arguments.flatMap (expand settings fs)),
        ∀ b ∈ sorted (arguments.flatMap (expand settings fs)), a.isAbsolute = b.isAbsolute := by
      intro a ha b hb
      obtain ⟨argument, hargument, h⟩ := hstands a ha
      obtain ⟨argument', hargument', h'⟩ := hstands b hb
      rw [h.isAbsolute htree, h'.isAbsolute htree]
      exact hroot argument hargument argument' hargument'
    refine (List.Pairwise.and_mem.mp happart).imp ?_
    intro a b ⟨ha, hb, h⟩
    exact h (hdirect a ha) (hdirect b hb) (hsame a ha b hb)

/-- The same directory and the same files are given several times, and no file is collected
twice. -/
theorem collect_apart_sampleTree :
    sampleTree.IsTree ∧ ∃ files,
      collect Settings.default sampleTree ["src/b.js", "./src", "a.js", "."] = .ok files ∧
        files.Pairwise fun a b => sampleTree.fileAt? a ≠ sampleTree.fileAt? b := by
  have hthere : ∀ argument ∈ ["src/b.js", "./src", "a.js", "."],
      sampleTree.contains argument = true := by
    decide +kernel
  obtain ⟨files, hfiles, -, -, h⟩ := collect_apart isTree_sampleTree Settings.default hthere
  exact ⟨isTree_sampleTree, files, hfiles,
    h (by decide +kernel) (by decide +kernel) (by decide +kernel)⟩

/-- A file that is spelled with and without `.` at the start is collected twice. -/
theorem collect_two_spellings :
    sampleTree.fileAt? "./a.js" = some ["work", "a.js"] ∧
      sampleTree.fileAt? "a.js" = some ["work", "a.js"] ∧
      collect Settings.default sampleTree ["a.js", "./a.js"] = .ok ["./a.js", "a.js"] := by
  refine ⟨by decide +kernel, by decide +kernel, ?_⟩
  rw [collect_eq_ok isTree_sampleTree (by decide +kernel)]
  have hfiles : ["a.js", "./a.js"].flatMap (expand Settings.default sampleTree) =
      ["a.js", "./a.js"] := by
    decide +kernel
  have horder : Path.compare "a.js" "./a.js" = .gt := by decide +kernel
  have hsame : Path.isSame "./a.js" "a.js" = false := by decide +kernel
  rw [hfiles]
  simp [sorted, List.mergeSort, dropRepeats, dropRepeats.after, horder, hsame]

end Discovery

end Concise
