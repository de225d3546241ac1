import Mathlib.Data.List.Basic
import Mathlib.Tactic.Lemma
import Concise.Discovery

/-!
Paths and their components.

* `Path.compare` orders paths by their components, and two paths are equal in that order exactly if
  they are the same path (`Path.compare_eq_iff`).
* `Path.components_eq`: the components of a path, from the pieces between its slashes.
* `Path.under`: the path of what lies below a directory. Its components are those of the directory,
  without `.` at the start, followed by the names below it (`Path.components_under`).
* `Path.walkSpelling?_bind`: the walk of a directory spells what it finds in this way, except that
  it gets nowhere after `.` and two slashes (`Path.breaksOff`).
-/

namespace Concise.Path

/-! ### Order -/

/-- The text of a name. -/
def Component.label : Component → String
  | .name text => text
  | _ => ""

lemma Component.compare_eq :
    Component.compare = compareLex (compareOn Component.compare.rank) (compareOn label) := by
  funext a b
  cases a <;> cases b <;> rfl

instance : Std.TransCmp Component.compare := by
  rw [Component.compare_eq]
  infer_instance

instance : Std.LawfulEqCmp Component.compare where
  eq_of_compare := by
    intro a b h
    cases a <;> cases b <;> first
      | rfl
      | cases h
      | exact congrArg Component.name (Std.LawfulEqOrd.eq_of_compare h)

lemma compareComponents_eq : compareComponents = List.compareLex Component.compare := by
  funext as
  induction as with
  | nil =>
      funext bs
      cases bs <;> rfl
  | cons a as ih =>
      funext bs
      cases bs with
      | nil => rfl
      | cons b bs => rw [compareComponents, ih, List.compareLex_cons_cons]

instance : Std.TransCmp compareComponents := by
  rw [compareComponents_eq]
  infer_instance

instance : Std.LawfulEqCmp compareComponents := by
  rw [compareComponents_eq]
  infer_instance

/-- Paths are equal in the order exactly if they have the same components. -/
lemma compare_eq_iff {a b : Path} : a.compare b = .eq ↔ a.components = b.components :=
  @Std.LawfulEqCmp.compare_eq_iff_eq _ compareComponents _ _ _

lemma isSame_iff {a b : Path} : a.isSame b = true ↔ a.components = b.components := beq_iff_eq

lemma compare_swap (a b : Path) : a.compare b = (b.compare a).swap :=
  @Std.OrientedCmp.eq_swap _ compareComponents _ _ _

lemma compare_lt_trans {a b c : Path} (hab : a.compare b = .lt) (hbc : b.compare c = .lt) :
    a.compare c = .lt :=
  @Std.TransCmp.lt_trans _ compareComponents _ _ _ _ hab hbc

lemma compare_isLE_trans {a b c : Path} (hab : (a.compare b).isLE = true)
    (hbc : (b.compare c).isLE = true) : (a.compare c).isLE = true :=
  @Std.TransCmp.isLE_trans _ compareComponents _ _ _ _ hab hbc

lemma compare_isLE_total (a b : Path) : ((a.compare b).isLE || (b.compare a).isLE) = true := by
  rw [compare_swap]
  cases b.compare a <;> rfl

lemma compare_lt_of_isLE {a b : Path} (hle : (a.compare b).isLE = true)
    (hsame : a.components ≠ b.components) : a.compare b = .lt := by
  cases h : a.compare b with
  | lt => rfl
  | eq => exact absurd (compare_eq_iff.mp h) hsame
  | gt =>
      rw [h] at hle
      cases hle

/-! ### Pieces -/

lemma pieces_append_slash (a b : String) : pieces (a ++ "/" ++ b) = pieces a ++ pieces b := by
  have hchars : (a ++ "/" ++ b).toList = a.toList ++ '/' :: b.toList := by simp
  rw [pieces, hchars, List.splitOn_append_cons_self, List.map_append]
  rfl

lemma pieces_of_not_mem {piece : String} (h : '/' ∉ piece.toList) : pieces piece = [piece] := by
  rw [pieces, List.splitOn_eq_singleton h]
  simp

lemma pieces_ne_nil (path : Path) : pieces path ≠ [] := by
  rw [pieces, ne_eq, List.map_eq_nil_iff]
  exact List.splitOn_ne_nil _ _

/-- No part that a list is split into holds the separator. -/
lemma not_mem_of_mem_splitOn {c : Char} {cs part : List Char} (h : part ∈ cs.splitOn c) :
    c ∉ part := by
  induction cs generalizing part with
  | nil =>
      obtain rfl : part = [] := by simpa [List.splitOn_eq_splitOnP] using h
      exact List.not_mem_nil
  | cons d ds ih =>
      rw [List.splitOn_cons_eq_if_modifyHead] at h
      obtain ⟨first, parts, hparts⟩ := List.exists_cons_of_ne_nil (List.splitOn_ne_nil c ds)
      rw [hparts] at h ih
      split at h
      · rcases List.mem_cons.mp h with rfl | hpart
        · exact List.not_mem_nil
        · exact ih hpart
      · rename_i hne
        rcases List.mem_cons.mp h with rfl | hpart
        · have hd : c ≠ d := fun heq => hne (beq_iff_eq.mpr heq.symm)
          exact List.not_mem_cons_of_ne_of_not_mem hd (ih List.mem_cons_self)
        · exact ih (List.mem_cons_of_mem _ hpart)

/-- No piece holds a slash. -/
lemma not_mem_of_mem_pieces {path : Path} {piece : String} (h : piece ∈ pieces path) :
    '/' ∉ piece.toList := by
  obtain ⟨chars, hchars, rfl⟩ := List.mem_map.mp h
  rw [String.toList_ofList]
  exact not_mem_of_mem_splitOn hchars

/-- Pieces with slashes between them are read back. -/
lemma pieces_intercalate {ps : List String} (hslash : ∀ p ∈ ps, '/' ∉ p.toList) (hps : ps ≠ []) :
    pieces ("/".intercalate ps) = ps := by
  have hsplit : List.splitOn '/' (['/'].intercalate (ps.map String.toList)) =
      ps.map String.toList := by
    refine List.splitOn_intercalate '/' ?_ (by simpa using hps)
    intro chars hchars
    obtain ⟨p, hp, rfl⟩ := List.mem_map.mp hchars
    exact hslash p hp
  have hlist : "/".toList = ['/'] := rfl
  rw [pieces, String.toList_intercalate, hlist, hsplit, List.map_map]
  exact List.map_id'' (fun p => String.ofList_toList) ps

/-! ### Components -/

lemma component?_of_ne {piece : String} (hempty : piece ≠ "") (hdot : piece ≠ ".")
    (hdots : piece ≠ "..") : component? piece = some (.name piece) := by
  unfold component?
  split
  · exact absurd rfl hempty
  · exact absurd rfl hdot
  · exact absurd rfl hdots
  · rfl

/-- A piece is no `.` component: only the beginning of a path is. -/
lemma ne_current_of_component? {piece : String} {component : Component}
    (h : component? piece = some component) : component ≠ .current := by
  rintro rfl
  unfold component? at h
  split at h <;> cases h

/-- The components that the first piece of a path is: `/` at the start leaves it empty. -/
def leading : String → List Component
  | "" => [.root]
  | "." => [.current]
  | piece => (component? piece).toList

lemma leading_of_ne {piece : String} (hempty : piece ≠ "") (hdot : piece ≠ ".") :
    leading piece = (component? piece).toList := by
  unfold leading
  split
  · exact absurd rfl hempty
  · exact absurd rfl hdot
  · rfl

/-- **The components of a path**: what its first piece is, then what the others are that count. -/
lemma components_eq {path : Path} (hpath : path ≠ "") {first : String} {rest : List String}
    (hpieces : pieces path = first :: rest) :
    path.components = leading first ++ rest.filterMap component? := by
  have hempty : path.isEmpty = false := by simpa using hpath
  unfold components
  rw [hpieces]
  split
  · rename_i rest' h
    obtain ⟨rfl, rfl⟩ := List.cons.inj h
    rw [hempty]
    rfl
  · rename_i rest' h
    obtain ⟨rfl, rfl⟩ := List.cons.inj h
    rfl
  · rename_i hroot hcurrent
    have hne : first ≠ "" := fun h => hroot rest (by rw [h])
    have hne' : first ≠ "." := fun h => hcurrent rest (by rw [h])
    rw [leading_of_ne hne hne', List.filterMap_cons]
    cases component? first <;> rfl

/-- Whether a path begins with a slash. -/
def isAbsolute (path : Path) : Bool := path != "" && path.pieces.head? == some ""

/-- Whether a path goes nowhere but down: no `.` and no `..` is among its components. -/
def isDirect (path : Path) : Bool :=
  !path.components.contains .current && !path.components.contains .parent

lemma isDirect_iff {path : Path} :
    path.isDirect = true ↔ Component.current ∉ path.components ∧
      Component.parent ∉ path.components := by
  simp [isDirect]

lemma pieces_of_isAbsolute {path : Path} (h : path.isAbsolute = true) :
    ∃ rest, path.pieces = "" :: rest := by
  have hhead : path.pieces.head? = some "" := by simp_all [isAbsolute]
  exact ⟨_, (List.eq_cons_of_mem_head? hhead)⟩

lemma pieces_of_not_isAbsolute {path : Path} (hpath : path ≠ "") (h : path.isAbsolute = false)
    (rest : List String) : path.pieces ≠ "" :: rest := by
  intro hpieces
  simp [isAbsolute, hpath, hpieces] at h

lemma filterMap_component?_cons (piece : String) (rest : List String) :
    (piece :: rest).filterMap component? =
      (component? piece).toList ++ rest.filterMap component? := by
  rw [List.filterMap_cons]
  cases component? piece <;> rfl

lemma filter_component? (piece : String) :
    (component? piece).toList.filter (· ≠ .current) = (component? piece).toList := by
  refine List.filter_eq_self.mpr fun component hmem => ?_
  simpa using ne_current_of_component? (Option.mem_toList.mp hmem)

lemma filter_leading (piece : String) :
    (leading piece).filter (· ≠ .current) =
      (if piece = "" then [.root] else []) ++ (component? piece).toList := by
  by_cases hempty : piece = ""
  · subst hempty
    rfl
  rw [if_neg hempty, List.nil_append]
  by_cases hdot : piece = "."
  · subst hdot
    rfl
  · rw [leading_of_ne hempty hdot, filter_component?]

/-- Apart from `.` at the start, the components of a path are the pieces that count. -/
lemma filter_components (path : Path) :
    path.components.filter (· ≠ .current) =
      (if path.isAbsolute then [.root] else []) ++ path.pieces.filterMap component? := by
  have hcount : ∀ ps : List String,
      (ps.filterMap component?).filter (· ≠ .current) = ps.filterMap component? := by
    intro ps
    induction ps with
    | nil => rfl
    | cons p ps ih => rw [filterMap_component?_cons, List.filter_append, filter_component?, ih]
  by_cases hpath : path = ""
  · subst hpath
    decide
  obtain ⟨first, rest, hpieces⟩ := List.exists_cons_of_ne_nil (pieces_ne_nil path)
  have hroot : path.isAbsolute = decide (first = "") := by
    simp [isAbsolute, hpath, hpieces, Bool.beq_eq_decide_eq]
  rw [components_eq hpath hpieces, List.filter_append, hcount, filter_leading, hpieces,
    filterMap_component?_cons, hroot, List.append_assoc]
  simp only [decide_eq_true_eq]

lemma current_not_mem_components {path : Path} (h : path.pieces.head? ≠ some ".") :
    Component.current ∉ path.components := by
  intro hmem
  by_cases hpath : path = ""
  · subst hpath
    exact absurd hmem (by decide)
  obtain ⟨first, rest, hpieces⟩ := List.exists_cons_of_ne_nil (pieces_ne_nil path)
  have hdot : first ≠ "." := by simpa [hpieces] using h
  rw [components_eq hpath hpieces] at hmem
  rcases List.mem_append.mp hmem with hfirst | hrest
  · by_cases hempty : first = ""
    · subst hempty
      exact absurd hfirst (by decide)
    · rw [leading_of_ne hempty hdot] at hfirst
      exact ne_current_of_component? (Option.mem_toList.mp hfirst) rfl
  · obtain ⟨piece, -, hpiece⟩ := List.mem_filterMap.mp hrest
    exact ne_current_of_component? hpiece rfl

/-! ### Joining -/

/-- A path with a slash at its end. -/
def slashed (path : Path) : Path := if path.endsWith "/" then path else path ++ "/"

lemma join_eq (base piece : String) : join base piece = slashed base ++ piece := by
  unfold join slashed
  split <;> rfl

lemma endsWith_slash_iff {path : Path} : path.endsWith "/" = true ↔ ['/'] <:+ path.toList := by
  rw [← String.endsWith_toSlice, String.Slice.endsWith_string_iff, String.copy_toSlice]
  rfl

lemma slashed_append_slash (path : Path) : slashed (path ++ "/") = path ++ "/" := by
  refine if_pos (endsWith_slash_iff.mpr ⟨path.toList, ?_⟩)
  simp

lemma slashed_slashed (path : Path) : slashed (slashed path) = slashed path := by
  rw [slashed.eq_def path]
  split
  · rename_i h
    exact if_pos h
  · exact slashed_append_slash path

lemma slashed_append {path : Path} {piece : String} (hpiece : piece ≠ "")
    (hslash : '/' ∉ piece.toList) : slashed (path ++ piece) = path ++ piece ++ "/" := by
  refine if_neg fun h => ?_
  obtain ⟨before, hbefore⟩ := endsWith_slash_iff.mp h
  have hlast := congrArg List.getLast? hbefore
  have hchars : piece.toList ≠ [] := by simpa using hpiece
  rw [String.toList_append, List.getLast?_concat, List.getLast?_append_of_ne_nil _ hchars] at hlast
  exact hslash (List.mem_of_getLast? hlast.symm)

lemma join_ne_dot (base piece : String) : join base piece ≠ "." := by
  intro h
  have hslash : '/' ∈ (join base piece).toList := by
    rw [join_eq, slashed]
    split
    · rename_i hends
      obtain ⟨before, hbefore⟩ := endsWith_slash_iff.mp hends
      simp [← hbefore]
    · simp
  rw [h] at hslash
  exact absurd hslash (by decide)

lemma intercalate_cons {p : String} {ps : List String} (hps : ps ≠ []) :
    "/".intercalate (p :: ps) = p ++ "/" ++ "/".intercalate ps := by
  rw [← List.singleton_append, String.intercalate_append_of_ne_nil (by simp) hps,
    String.intercalate_singleton]

lemma filter_ne_nil {ps : List String} (hlast : ∃ p, ps.getLast? = some p ∧ p ≠ "") :
    ps.filter (· != "") ≠ [] := by
  obtain ⟨last, hmem, hne⟩ := hlast
  exact List.ne_nil_of_mem (List.mem_filter.mpr ⟨List.mem_of_getLast? hmem, by simpa using hne⟩)

/-- Pieces that are joined to a path follow it with one slash before each that is not empty. -/
lemma foldl_join {ps : List String} (base : Path) (hslash : ∀ p ∈ ps, '/' ∉ p.toList)
    (hlast : ∃ p, ps.getLast? = some p ∧ p ≠ "") :
    ps.foldl join base = slashed base ++ "/".intercalate (ps.filter (· != "")) := by
  induction ps generalizing base with
  | nil =>
      obtain ⟨p, hp, -⟩ := hlast
      cases hp
  | cons p qs ih =>
      have ihslash : ∀ q ∈ qs, '/' ∉ q.toList := fun q hq => hslash q (List.mem_cons_of_mem _ hq)
      rw [List.foldl_cons, join_eq]
      cases qs with
      | nil =>
          obtain ⟨q, hq, hne⟩ := hlast
          obtain rfl : p = q := by simpa using hq
          simp [hne]
      | cons q qs =>
          rw [List.getLast?_cons_cons] at hlast
          rw [ih _ ihslash hlast]
          by_cases hp : p = ""
          · subst hp
            rw [String.append_empty, slashed_slashed]
            rfl
          · have hkept : (p :: q :: qs).filter (· != "") = p :: (q :: qs).filter (· != "") :=
              List.filter_cons_of_pos (by simpa using hp)
            rw [slashed_append hp (hslash p List.mem_cons_self), hkept,
              intercalate_cons (filter_ne_nil hlast)]
            simp only [String.append_assoc]

/-! ### Walking -/

/-- The pieces of a path without the last one if it is empty. -/
def innerPieces (pieces : List String) : List String :=
  if pieces.getLast? == some "" then pieces.dropLast else pieces

/-- How the walk of a directory spells it, if it gets there. -/
def walkSpelling? (path : Path) : Option Path :=
  match path.pieces with
  | "" :: rest => (innerPieces rest).foldlM extend? "/"
  | pieces => (innerPieces pieces).foldlM extend? "."

/-- The walk joins the pieces unless it stands at `.`. -/
lemma foldlM_extend? {base : Path} (hbase : base ≠ ".") (ps : List String) :
    ps.foldlM extend? base = some (ps.foldl join base) := by
  induction ps generalizing base with
  | nil => rfl
  | cons p ps ih =>
      have hstep : extend? base p = some (join base p) := by simp [extend?, hbase]
      rw [List.foldlM_cons, hstep, List.foldl_cons]
      exact ih (join_ne_dot base p)

lemma filter_innerPieces (ps : List String) :
    (innerPieces ps).filter (· != "") = ps.filter (· != "") := by
  unfold innerPieces
  split
  · rename_i h
    obtain ⟨before, rfl⟩ := List.getLast?_eq_some_iff.mp (beq_iff_eq.mp h)
    simp
  · rfl

lemma innerPieces_subset (ps : List String) : innerPieces ps ⊆ ps := by
  unfold innerPieces
  split
  · exact List.dropLast_subset ps
  · exact List.Subset.refl ps

lemma innerPieces_cons {p : String} {ps : List String} (h : p ≠ "" ∨ ps ≠ []) :
    innerPieces (p :: ps) = p :: innerPieces ps := by
  cases ps with
  | nil =>
      have hp : p ≠ "" := h.resolve_right (fun hnil => hnil rfl)
      simp [innerPieces, hp]
  | cons q ps =>
      unfold innerPieces
      rw [List.getLast?_cons_cons, List.dropLast_cons_cons]
      split <;> rfl

/-- At `.` the walk takes the first piece for the beginning of the path. -/
lemma foldlM_extend?_first {first : String} {qs : List String} (hempty : first ≠ "")
    (hdot : first ≠ ".") (hslash : ∀ p ∈ first :: qs, '/' ∉ p.toList)
    (hlast : ∃ p, (first :: qs).getLast? = some p ∧ p ≠ "") :
    (first :: qs).foldlM extend? "." = some ("/".intercalate (first :: qs.filter (· != ""))) := by
  have hstep : extend? "." first = some first := by simp [extend?, hempty]
  rw [List.foldlM_cons, hstep]
  refine (foldlM_extend? hdot qs).trans (congrArg some ?_)
  cases qs with
  | nil => exact String.intercalate_singleton.symm
  | cons q qs =>
      rw [List.getLast?_cons_cons] at hlast
      have hfirst : slashed first = first ++ "/" := by
        simpa using @slashed_append "" _ hempty (hslash first List.mem_cons_self)
      rw [foldl_join first (fun p hp => hslash p (List.mem_cons_of_mem _ hp)) hlast, hfirst,
        intercalate_cons (filter_ne_nil hlast)]

/-! ### Below a directory -/

/-- Whether a text is the name of something in a directory. -/
def isName (text : String) : Bool :=
  text != "" && text != "." && text != ".." && !text.toList.contains '/'

lemma isName_iff {text : String} :
    isName text = true ↔ text ≠ "" ∧ text ≠ "." ∧ text ≠ ".." ∧ '/' ∉ text.toList := by
  simp [isName, and_assoc]

lemma component?_of_isName {text : String} (h : isName text = true) :
    component? text = some (.name text) := by
  obtain ⟨hempty, hdot, hdots, -⟩ := isName_iff.mp h
  exact component?_of_ne hempty hdot hdots

/-- The pieces of a directory that the paths below it keep: none is empty, and a relative path does
not begin with `.`. -/
def keptPieces (directory : Path) : List String :=
  match directory.pieces with
  | "" :: rest => rest.filter (· != "")
  | pieces => (pieces.dropWhile (· == ".")).filter (· != "")

lemma keptPieces_of_relative {directory : Path} (h : ∀ rest, directory.pieces ≠ "" :: rest) :
    directory.keptPieces = (directory.pieces.dropWhile (· == ".")).filter (· != "") := by
  unfold keptPieces
  split
  · rename_i hpieces
    exact absurd hpieces (h _)
  · rfl

lemma walkSpelling?_of_relative {directory : Path} (h : ∀ rest, directory.pieces ≠ "" :: rest) :
    directory.walkSpelling? = (innerPieces directory.pieces).foldlM extend? "." := by
  unfold walkSpelling?
  split
  · rename_i hpieces
    exact absurd hpieces (h _)
  · rfl

lemma keptPieces_subset (directory : Path) : directory.keptPieces ⊆ directory.pieces := by
  unfold keptPieces
  split
  · rename_i rest hpieces
    rw [hpieces]
    exact List.Subset.trans (List.filter_subset_self _) (List.subset_cons_self _ _)
  · exact List.Subset.trans (List.filter_subset_self _) (List.dropWhile_subset _)

/-- The pieces that are not kept count for nothing. -/
lemma filterMap_keptPieces (directory : Path) :
    directory.keptPieces.filterMap component? = directory.pieces.filterMap component? := by
  have hempty : ∀ ps : List String,
      (ps.filter (· != "")).filterMap component? = ps.filterMap component? := by
    intro ps
    rw [List.filterMap_filter]
    refine List.filterMap_congr fun p _ => ?_
    by_cases hp : p = ""
    · subst hp
      rfl
    · simp [hp]
  have hdots : ∀ ps : List String,
      (ps.dropWhile (· == ".")).filterMap component? = ps.filterMap component? := by
    intro ps
    induction ps with
    | nil => rfl
    | cons p ps ih =>
        by_cases hp : p = "."
        · subst hp
          exact ih
        · simp [hp]
  unfold keptPieces
  split
  · rename_i rest hpieces
    rw [hpieces, hempty]
    rfl
  · rw [hempty, hdots]

/-- The path of what lies below a directory. -/
def under (directory : Path) (names : Location) : Path :=
  let path := "/".intercalate (directory.keptPieces ++ names)
  if directory.isAbsolute then "/" ++ path else path

/-- Whether a relative path goes on with two slashes after the `.` at its start. -/
def breaksOff (path : Path) : Bool :=
  !path.isAbsolute &&
    match path.pieces.dropWhile (· == ".") with
    | "" :: _ :: _ => true
    | _ => false

section

variable {names : Location} (hnames : ∀ name ∈ names, isName name = true) (hne : names ≠ [])

include hnames

lemma not_mem_append_names {ps : List String} (hslash : ∀ p ∈ ps, '/' ∉ p.toList) :
    ∀ p ∈ ps ++ names, '/' ∉ p.toList := by
  intro p hp
  rcases List.mem_append.mp hp with hp | hp
  · exact hslash p hp
  · exact (isName_iff.mp (hnames p hp)).2.2.2

lemma filter_names : names.filter (· != "") = names :=
  List.filter_eq_self.mpr fun name h => by simpa using (isName_iff.mp (hnames name h)).1

include hne

lemma getLast?_append_names (ps : List String) :
    ∃ p, (ps ++ names).getLast? = some p ∧ p ≠ "" := by
  refine ⟨names.getLast hne, ?_, (isName_iff.mp (hnames _ (List.getLast_mem hne))).1⟩
  rw [List.getLast?_append_of_ne_nil _ hne, List.getLast?_eq_some_getLast hne]

/-- The walk from `.`: a `.` leaves it there, and the next piece is the beginning of the path. -/
lemma foldlM_extend?_dot {ps : List String} (hslash : ∀ p ∈ ps, '/' ∉ p.toList) :
    (innerPieces ps ++ names).foldlM extend? "." =
      match ps.dropWhile (· == ".") with
      | "" :: _ :: _ => none
      | qs => some ("/".intercalate (qs.filter (· != "") ++ names)) := by
  have hstart : names.foldlM extend? "." = some ("/".intercalate names) := by
    have hlast := getLast?_append_names hnames hne []
    have hall := @not_mem_append_names _ hnames [] (by simp)
    have hkept := filter_names hnames
    obtain ⟨name, more, rfl⟩ := List.exists_cons_of_ne_nil hne
    have hname := isName_iff.mp (hnames name List.mem_cons_self)
    rw [List.nil_append] at hlast hall
    rw [foldlM_extend?_first hname.1 hname.2.1 hall hlast]
    rw [List.filter_cons_of_pos (by simpa using hname.1)] at hkept
    rw [hkept]
  induction ps with
  | nil => exact hstart
  | cons p ps ih =>
      have ihslash : ∀ q ∈ ps, '/' ∉ q.toList := fun q hq => hslash q (List.mem_cons_of_mem _ hq)
      by_cases hdot : p = "."
      · subst hdot
        rw [innerPieces_cons (Or.inl (by decide)), List.cons_append, List.foldlM_cons]
        exact ih ihslash
      · have hdrop : (p :: ps).dropWhile (· == ".") = p :: ps := by simp [hdot]
        rw [hdrop]
        by_cases hempty : p = ""
        · subst hempty
          cases ps with
          | nil => exact hstart
          | cons q qs =>
              rw [innerPieces_cons (Or.inr (by simp)), List.cons_append, List.foldlM_cons]
              rfl
        · have hall : ∀ q ∈ p :: (innerPieces ps ++ names), '/' ∉ q.toList :=
            not_mem_append_names hnames fun q hq =>
              hslash q (List.cons_subset_cons p (innerPieces_subset ps) hq)
          have hlast := getLast?_append_names hnames hne (p :: innerPieces ps)
          rw [innerPieces_cons (Or.inl hempty), List.cons_append,
            foldlM_extend?_first hempty hdot hall hlast, List.filter_append, filter_innerPieces,
            filter_names hnames]
          split
          · rename_i h
            exact absurd (List.cons.inj h).1 hempty
          · simp [hempty]

/-- **How the walk of a directory spells what it finds.** -/
lemma walkSpelling?_bind {directory : Path} (hdirectory : directory ≠ "") :
    (directory.walkSpelling?.bind fun base => names.foldlM extend? base) =
      if directory.breaksOff then none else some (directory.under names) := by
  have hslash : ∀ p ∈ directory.pieces, '/' ∉ p.toList := fun p hp => not_mem_of_mem_pieces hp
  have hfold : ∀ base ps,
      ((innerPieces ps).foldlM extend? base).bind (fun base => names.foldlM extend? base) =
        (innerPieces ps ++ names).foldlM extend? base := by
    intro base ps
    rw [List.foldlM_append]
    rfl
  cases habsolute : directory.isAbsolute with
  | true =>
      obtain ⟨rest, hpieces⟩ := pieces_of_isAbsolute habsolute
      rw [hpieces] at hslash
      have hall := not_mem_append_names hnames fun q hq =>
        hslash q (List.mem_cons_of_mem _ (innerPieces_subset rest hq))
      have hroot : slashed "/" = "/" := slashed_append_slash ""
      simp only [walkSpelling?, breaksOff, under, keptPieces, hpieces, habsolute]
      rw [hfold, foldlM_extend? (by decide),
        foldl_join _ hall (getLast?_append_names hnames hne _), List.filter_append,
        filter_innerPieces, filter_names hnames, hroot]
      rfl
  | false =>
      have hrelative := pieces_of_not_isAbsolute hdirectory habsolute
      rw [walkSpelling?_of_relative hrelative, hfold, foldlM_extend?_dot hnames hne hslash]
      unfold breaksOff under
      rw [keptPieces_of_relative hrelative, habsolute]
      split <;> simp_all

/-- The pieces of what lies below a directory. -/
lemma pieces_under (directory : Path) :
    (directory.under names).pieces =
      (if directory.isAbsolute then [""] else []) ++ (directory.keptPieces ++ names) := by
  have hkept : ∀ p ∈ directory.keptPieces, '/' ∉ p.toList :=
    fun p hp => not_mem_of_mem_pieces (keptPieces_subset directory hp)
  have hall := not_mem_append_names hnames hkept
  have hnil : directory.keptPieces ++ names ≠ [] := by simp [hne]
  unfold under
  split
  · exact (pieces_append_slash "" _).trans (by rw [pieces_intercalate hall hnil]; rfl)
  · exact pieces_intercalate hall hnil

/-- A relative path below a directory begins with a piece that counts. -/
lemma head?_keptPieces_append {directory : Path} (hdirectory : directory ≠ "")
    (hbreaks : directory.breaksOff = false) (hrelative : directory.isAbsolute = false) :
    ∃ first, (directory.keptPieces ++ names).head? = some first ∧ first ≠ "" ∧ first ≠ "." := by
  have hnil : ∃ first, names.head? = some first ∧ first ≠ "" ∧ first ≠ "." := by
    obtain ⟨name, more, rfl⟩ := List.exists_cons_of_ne_nil hne
    have hname := isName_iff.mp (hnames name List.mem_cons_self)
    exact ⟨name, rfl, hname.1, hname.2.1⟩
  rw [keptPieces_of_relative (pieces_of_not_isAbsolute hdirectory hrelative)]
  cases hdrop : directory.pieces.dropWhile (· == ".") with
  | nil => exact hnil
  | cons p ps =>
      have hdot : p ≠ "." := by
        have := List.head?_dropWhile_not (· == ".") directory.pieces
        simpa [hdrop] using this
      by_cases hempty : p = ""
      · subst hempty
        cases ps with
        | nil => exact hnil
        | cons q qs => simp [breaksOff, hrelative, hdrop] at hbreaks
      · exact ⟨p, by simp [hempty], hempty, hdot⟩

lemma isAbsolute_under {directory : Path} (hdirectory : directory ≠ "")
    (hbreaks : directory.breaksOff = false) :
    (directory.under names).isAbsolute = directory.isAbsolute := by
  cases habsolute : directory.isAbsolute with
  | true =>
      have hpath : directory.under names ≠ "" := by simp [under, habsolute]
      rw [isAbsolute, pieces_under hnames hne, habsolute]
      simpa using hpath
  | false =>
      obtain ⟨first, hhead, hempty, -⟩ :=
        head?_keptPieces_append hnames hne hdirectory hbreaks habsolute
      rw [isAbsolute, pieces_under hnames hne, habsolute]
      simp [hhead, hempty]

/-- **The components of what lies below a directory**: those of the directory, without `.` at the
start, and the names. -/
lemma components_under {directory : Path} (hdirectory : directory ≠ "")
    (hbreaks : directory.breaksOff = false) :
    (directory.under names).components =
      directory.components.filter (· ≠ .current) ++ names.map .name := by
  have hhead : (directory.under names).pieces.head? ≠ some "." := by
    rw [pieces_under hnames hne]
    cases habsolute : directory.isAbsolute with
    | true => simp
    | false =>
        obtain ⟨first, hfirst, -, hdot⟩ :=
          head?_keptPieces_append hnames hne hdirectory hbreaks habsolute
        simpa [hfirst] using hdot
  have hself : (directory.under names).components.filter (· ≠ .current) =
      (directory.under names).components := by
    refine List.filter_eq_self.mpr fun component hmem => ?_
    simpa using ne_of_mem_of_not_mem hmem (current_not_mem_components hhead)
  have hlead : ((if directory.isAbsolute then [""] else []) : List String).filterMap component? =
      [] := by
    split <;> rfl
  have hlast : names.filterMap component? = names.map .name := by
    rw [← List.filterMap_eq_map]
    exact List.filterMap_congr fun name hname => component?_of_isName (hnames name hname)
  rw [← hself, filter_components, filter_components directory,
    isAbsolute_under hnames hne hdirectory hbreaks, pieces_under hnames hne, List.filterMap_append,
    List.filterMap_append, hlead, filterMap_keptPieces, hlast, List.nil_append, List.append_assoc]

end

end Concise.Path
