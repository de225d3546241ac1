import Concise.Processing
import Concise.Proofs.FileTrees

/-!
What processing does to a file, and what it leaves alone.

* `FileSystem.withTexts`: the files with new texts at some locations. Paths lead where they led, and
  every other file is read as before (`FileSystem.read_withTexts`).
* `Treatment.written_eq_some_iff` and `Treatment.outcome_eq_ok_iff`: when a text is written back,
  and when the report says so.
* `Treatment.report_dry`: a dry run differs in nothing but the writing.
* `FileSystem.read_process`: a processed file holds the text that was written, or what it held.
-/

namespace Concise

/-! ### New texts -/

namespace FileSystem

/-- The files with new texts at some locations. -/
def withTexts (fs : FileSystem) (texts : Location → Option String) : FileSystem :=
  { fs with files := fs.files.map fun file => (file.1, ((texts file.1).map .text).getD file.2) }

variable {fs : FileSystem} {texts : Location → Option String} {path : Path} {location : Location}

lemma withTexts_none : fs.withTexts (fun _ => none) = fs := by
  simp [withTexts]

lemma contentAt?_withTexts : (fs.withTexts texts).contentAt? location =
    (fs.contentAt? location).map ((texts location).map .text).getD := by
  simp only [contentAt?, withTexts]
  induction fs.files with
  | nil => rfl
  | cons file files ih =>
      rw [List.map_cons, List.lookup_cons, List.lookup_cons, ih]
      by_cases h : location = file.1
      · rw [h]
        simp
      · simp [beq_false_of_ne h]

lemma isSome_contentAt?_withTexts :
    ((fs.withTexts texts).contentAt? location).isSome = (fs.contentAt? location).isSome := by
  rw [contentAt?_withTexts, Option.isSome_map]

lemma follow_withTexts (pieces : List String) :
    (fs.withTexts texts).follow location pieces = fs.follow location pieces := by
  induction pieces generalizing location with
  | nil => rfl
  | cons piece rest ih =>
      rw [follow, follow, ih, isSome_contentAt?_withTexts]
      rfl

/-- Paths lead where they led. -/
lemma locate_withTexts : (fs.withTexts texts).locate path = fs.locate path := by
  unfold locate
  simp only [follow_withTexts]
  rfl

lemma fileAt?_withTexts : (fs.withTexts texts).fileAt? path = fs.fileAt? path := by
  unfold fileAt?
  simp only [locate_withTexts, isSome_contentAt?_withTexts]

/-- A file without a new text is read as before. -/
lemma read_withTexts (h : ∀ location, fs.fileAt? path = some location → texts location = none) :
    (fs.withTexts texts).read path = fs.read path := by
  unfold read
  rw [locate_withTexts]
  cases hlocate : fs.locate path with
  | error fault => rfl
  | ok location =>
      have hcontent : (fs.withTexts texts).contentAt? location = fs.contentAt? location := by
        rw [contentAt?_withTexts]
        cases hfile : fs.contentAt? location with
        | none => rfl
        | some content =>
            rw [h location (fileAt?_eq_some_iff.mpr ⟨hlocate, by rw [hfile]; rfl⟩)]
            rfl
      simp only [Except.bind, bind, hcontent]
      rfl

/-- A file with a new text holds it. -/
lemma read_withTexts_of_eq_some {text : String} (hfile : fs.fileAt? path = some location)
    (htext : texts location = some text) :
    (fs.withTexts texts).read path = .ok (.text text) := by
  obtain ⟨hlocate, hcontent⟩ := fileAt?_eq_some_iff.mp hfile
  obtain ⟨content, hcontent⟩ := Option.isSome_iff_exists.mp hcontent
  unfold read
  rw [locate_withTexts, hlocate]
  simp only [Except.bind, bind, contentAt?_withTexts, hcontent, htext]
  rfl

/-- Writing adds a new text. -/
lemma write_withTexts (text : String) : (fs.withTexts texts).write path text =
    fs.withTexts fun location =>
      if fs.fileAt? path = some location then some text else texts location := by
  unfold write
  rw [fileAt?_withTexts]
  cases fs.fileAt? path with
  | none => simp
  | some place =>
      simp only [replaceAt, withTexts, List.map_map]
      congr 1
      refine List.map_congr_left fun file _ => ?_
      by_cases h : file.1 = place
      · simp [h]
      · simp [h, Ne.symm h]

/-- What can be read is a file. -/
lemma exists_fileAt?_of_readText {source : String} (h : fs.readText path = .ok source) :
    ∃ location, fs.fileAt? path = some location := by
  unfold readText read at h
  cases hlocate : fs.locate path with
  | error fault =>
      rw [hlocate] at h
      cases h
  | ok location =>
      refine ⟨location, fileAt?_eq_some_iff.mpr ⟨hlocate, ?_⟩⟩
      rw [hlocate] at h
      cases hcontent : fs.contentAt? location with
      | some content => rfl
      | none =>
          cases hdirectory : fs.isDirectoryAt location <;>
            simp [bind, Except.bind, hcontent, hdirectory] at h

lemma readText_congr {other : FileSystem} (h : other.read path = fs.read path) :
    other.readText path = fs.readText path := by
  rw [readText, readText, h]

end FileSystem

/-! ### Treatments -/

namespace Treatment

variable {settings : Settings} {path : Path} {result : Except FileFault String}

/-- What is done with a file, from what reading it gave and what transforming its text gave. -/
inductive Cases (settings : Settings) (path : Path) : Except FileFault String → Treatment → Prop
  | unreadable (fault : FileFault) :
      Cases settings path (.error fault)
        (leaveAlone path (.error ("failed to read " ++ path ++ ": " ++ fault.message)))
  | unsupported {source other : String}
      (h : transformFile path settings.transform source = .error (.unsupportedExtension other)) :
      Cases settings path (.ok source)
        (leaveAlone path (.skipped (Error.unsupportedExtension other).message))
  | failed {source : String} {e : Error} (hother : ∀ other, e ≠ .unsupportedExtension other)
      (h : transformFile path settings.transform source = .error e) :
      Cases settings path (.ok source) (leaveAlone path (.error e.message))
  | unchanged {source : String} {t : Transformed} (hchanged : t.isChanged = false)
      (h : transformFile path settings.transform source = .ok t) :
      Cases settings path (.ok source)
        { leaveAlone path .unmodified with events := t.events path }
  | changed {source : String} {t : Transformed} (hchanged : t.isChanged = true)
      (h : transformFile path settings.transform source = .ok t) :
      Cases settings path (.ok source)
        { report :=
            { path, outcome := .ok t.counts
              output := if settings.prints then some t.code else none }
          written := if settings.isDry then none else some t.code
          events := t.events path }

lemma cases_ofRead (settings : Settings) (path : Path) (result : Except FileFault String) :
    Cases settings path result (ofRead settings path result) := by
  cases result with
  | error fault => exact .unreadable fault
  | ok source =>
      rw [ofRead, ofSource]
      cases h : transformFile path settings.transform source with
      | error e =>
          cases e with
          | unsupportedExtension other => exact .unsupported h
          | parse other diagnostics => exact .failed (by simp) h
          | invalidQuoteStyle style => exact .failed (by simp) h
      | ok t =>
          simp only [ofTransformed]
          split
          · rename_i hchanged
            exact .changed hchanged h
          · rename_i hchanged
            exact .unchanged (Bool.eq_false_iff.mpr hchanged) h

lemma path_report : (ofRead settings path result).report.path = path := by
  have h := cases_ofRead settings path result
  generalize ofRead settings path result = t at h
  cases h <;> rfl

/-- A dry run differs in nothing but the writing. -/
lemma report_dry (settings : Settings) (path : Path) (result : Except FileFault String)
    (isDry : Bool) :
    (ofRead { settings with isDry } path result).report = (ofRead settings path result).report := by
  cases result with
  | error fault => rfl
  | ok source =>
      simp only [ofRead, ofSource]
      cases transformFile path settings.transform source with
      | error e => cases e <;> rfl
      | ok t =>
          simp only [ofTransformed]
          split <;> rfl

/-- **When a text is written back**: the file was read and transformed, something was simplified,
and the run is not dry. -/
lemma written_eq_some_iff {text : String} : (ofRead settings path result).written = some text ↔
    settings.isDry = false ∧ ∃ source t, result = .ok source ∧
      transformFile path settings.transform source = .ok t ∧ t.isChanged = true ∧
      t.code = text := by
  have h := cases_ofRead settings path result
  generalize ofRead settings path result = treatment at h
  cases h with
  | unreadable fault => simp [leaveAlone]
  | unsupported h => simp [leaveAlone, h]
  | failed _ h => simp [leaveAlone, h]
  | unchanged hchanged h => simp [leaveAlone, h, hchanged]
  | changed hchanged h => simp [h, hchanged]

/-- **When a report tells of simplifications**: as above, whether or not the run is dry. -/
lemma outcome_eq_ok_iff {counts : Counts} :
    (ofRead settings path result).report.outcome = .ok counts ↔ ∃ source t, result = .ok source ∧
      transformFile path settings.transform source = .ok t ∧ t.isChanged = true ∧
      t.counts = counts := by
  have h := cases_ofRead settings path result
  generalize ofRead settings path result = treatment at h
  cases h with
  | unreadable fault => simp [leaveAlone]
  | unsupported h => simp [leaveAlone, h]
  | failed _ h => simp [leaveAlone, h]
  | unchanged hchanged h => simp [leaveAlone, h, hchanged]
  | changed hchanged h => simp [h, hchanged]

end Treatment

/-! ### Processing a file -/

namespace FileSystem

variable {fs : FileSystem} {texts : Location → Option String} {settings : Settings} {path : Path}

/-- Doing what was decided for a file adds the text that is written. -/
lemma apply_withTexts (t : Treatment) : (fs.withTexts texts).apply t =
    fs.withTexts fun location =>
      (if fs.fileAt? t.report.path = some location then t.written else none).or
        (texts location) := by
  unfold apply
  cases t.written with
  | none => simp
  | some text =>
      simp only [write_withTexts]
      congr 1
      funext location
      split <;> rfl

/-- What is written back is written to a file. -/
lemma exists_fileAt?_of_written {text : String} (h : (fs.treat settings path).written = some text) :
    ∃ location, fs.fileAt? path = some location := by
  obtain ⟨-, source, -, hsource, -⟩ := Treatment.written_eq_some_iff.mp h
  exact exists_fileAt?_of_readText hsource

/-- **A processed file** holds the text that was written back, or what it held before. -/
lemma read_process : (fs.process settings path).2.read path =
    match (fs.treat settings path).written with
    | some text => .ok (.text text)
    | none => fs.read path := by
  have happly := @apply_withTexts fs (fun _ => none) (fs.treat settings path)
  rw [withTexts_none] at happly
  have hpath : (fs.treat settings path).report.path = path := Treatment.path_report
  simp only [process, happly, hpath, Option.or_none]
  cases hwritten : (fs.treat settings path).written with
  | none => exact read_withTexts fun location _ => ite_self _
  | some text =>
      obtain ⟨location, hfile⟩ := exists_fileAt?_of_written hwritten
      exact read_withTexts_of_eq_some hfile (if_pos hfile)

end FileSystem

end Concise
