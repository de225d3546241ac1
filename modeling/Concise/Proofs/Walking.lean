import Concise.Proofs.FileTrees
import Concise.Proofs.Globs

/-!
What the walk of a directory meets.

* `Walk.pieces_patternBelow`: the pieces of the pattern for what is below a directory are those of
  the directory, escaped, and two wildcards.
* `Walk.find_of_bound_le`: the bound of the walk is large enough not to matter.
* `Walk.mem_find_escaped`: along escaped pieces the walk goes where the pieces lead, whether it has
  to list directories on the way or not. So the names of directories stand for themselves.
* `Walk.exists_of_mem_find_below`, `Walk.mem_find_below`: with the two wildcards it meets only what
  is below, and every file there.
* `Walk.along_patternBelow`: the pattern can be read, no directory fails to be listed, and the files
  that are met are those below the directory, spelled as `Path.under` says.
-/

namespace Concise

namespace Glob

lemma escape_append (a b : String) : escape (a ++ b) = escape a ++ escape b := by
  simp [escape]

lemma escape_eq_empty_iff {text : String} : escape text = "" ↔ text = "" := by
  constructor
  · intro h
    have hnil : text.toList.flatMap escapeChar = [] := by simpa [escape] using h
    rw [List.flatMap_eq_nil_iff] at hnil
    cases hchars : text.toList with
    | nil => simpa using hchars
    | cons c cs =>
        have hchar := hnil c (by rw [hchars]; exact List.mem_cons_self)
        unfold escapeChar at hchar
        split at hchar <;> cases hchar
  · rintro rfl
    rfl

/-- Escaping brings in no slash. -/
lemma not_mem_escape {text : String} (h : '/' ∉ text.toList) : '/' ∉ (escape text).toList := by
  rw [escape, String.toList_ofList, List.mem_flatMap]
  rintro ⟨c, hc, hmem⟩
  have hne : c ≠ '/' := fun heq => h (heq ▸ hc)
  unfold escapeChar at hmem
  split at hmem <;> simp [hne.symm] at hmem

/-- A text is escaped between its slashes. -/
lemma escape_intercalate (ps : List String) :
    escape ("/".intercalate ps) = "/".intercalate (ps.map escape) := by
  induction ps with
  | nil => rfl
  | cons p ps ih =>
      cases ps with
      | nil => simp
      | cons q qs =>
          have hslash : escape "/" = "/" := by decide
          rw [Path.intercalate_cons (List.cons_ne_nil q qs), escape_append, escape_append, ih,
            hslash, ← Path.intercalate_cons (by simp)]
          rfl

end Glob

namespace Path

lemma pieces_escape (path : Path) : pieces (Glob.escape path) = path.pieces.map Glob.escape := by
  have hslash : ∀ p ∈ path.pieces.map Glob.escape, '/' ∉ p.toList := by
    intro p hp
    obtain ⟨piece, hpiece, rfl⟩ := List.mem_map.mp hp
    exact Glob.not_mem_escape (not_mem_of_mem_pieces hpiece)
  have hne : path.pieces.map Glob.escape ≠ [] := by simpa using pieces_ne_nil path
  rw [← pieces_intercalate hslash hne, ← Glob.escape_intercalate, intercalate_pieces]

lemma innerPieces_map_escape (ps : List String) :
    innerPieces (ps.map Glob.escape) = (innerPieces ps).map Glob.escape := by
  have hlast : ((ps.map Glob.escape).getLast? == some "") = (ps.getLast? == some "") := by
    rw [Bool.eq_iff_iff, beq_iff_eq, beq_iff_eq, List.getLast?_map, Option.map_eq_some_iff]
    simp [Glob.escape_eq_empty_iff]
  unfold innerPieces
  rw [hlast]
  split
  · exact List.map_dropLast.symm
  · rfl

lemma innerPieces_concat {ps : List String} {p : String} (hp : p ≠ "") :
    innerPieces (ps ++ [p]) = ps ++ [p] := by
  simp [innerPieces, hp]

/-- A piece that is joined to a path takes the place of an empty last piece. -/
lemma pieces_join {base : Path} {piece : String} (hbase : base ≠ "") (hpiece : '/' ∉ piece.toList) :
    (join base piece).pieces = innerPieces base.pieces ++ [piece] := by
  unfold join
  split
  · rename_i hends
    obtain ⟨before, hbefore⟩ := endsWith_slash_iff.mp hends
    obtain rfl : base = String.ofList before ++ "/" := by
      rw [← String.toList_inj, ← hbefore]
      simp
    have hpieces : pieces (String.ofList before ++ "/") =
        pieces (String.ofList before) ++ [""] := by
      rw [← @pieces_of_not_mem "" (by decide), ← pieces_append_slash, String.append_empty]
    rw [pieces_append_slash, pieces_of_not_mem hpiece, hpieces]
    simp [innerPieces]
  · rename_i hends
    rw [pieces_append_slash, pieces_of_not_mem hpiece]
    refine congrArg (· ++ [piece]) (if_neg fun hlast => ?_).symm
    obtain ⟨before, hbefore⟩ := List.getLast?_eq_some_iff.mp (beq_iff_eq.mp hlast)
    -- a path whose last piece is empty ends with a slash
    have hpath := intercalate_pieces base
    rw [hbefore] at hpath
    cases before with
    | nil => exact hbase hpath.symm
    | cons p ps =>
        rw [String.intercalate_append_of_ne_nil (by simp) (by simp)] at hpath
        refine hends (endsWith_slash_iff.mpr ⟨("/".intercalate (p :: ps)).toList, ?_⟩)
        simp [← hpath]

end Path

namespace Walk

/-- The wildcard for directories one in the other. -/
def anyDirectories : Glob := ⟨"**", [.anyComponents]⟩

/-- The wildcard for a name. -/
def anyName : Glob := ⟨"*", [.anySequence]⟩

lemma matchesPath_anyName (name : String) : anyName.matchesPath name = true := by
  have hendings : ∀ cs : List Char, [] ∈ Glob.endings cs := by
    intro cs
    induction cs with
    | nil => exact List.mem_singleton_self _
    | cons c cs ih => exact List.mem_cons_of_mem _ ih
  rw [Glob.matchesPath, anyName, Glob.matchesAll, List.any_eq_true]
  exact ⟨[], hendings _, rfl⟩

/-! ### The pattern -/

/-- **The pieces of the pattern for what is below a directory.** -/
lemma pieces_patternBelow {directory : Path} (hdirectory : directory ≠ "") :
    Path.pieces (patternBelow directory) =
      (Path.innerPieces directory.pieces).map Glob.escape ++ ["**", "*"] := by
  have hescape : Glob.escape directory ≠ "" := fun h => hdirectory (Glob.escape_eq_empty_iff.mp h)
  have hpieces : (Path.join (Glob.escape directory) "**").pieces =
      (Path.innerPieces directory.pieces).map Glob.escape ++ ["**"] := by
    rw [Path.pieces_join hescape (by decide), Path.pieces_escape, Path.innerPieces_map_escape]
  have hjoin : Path.join (Glob.escape directory) "**" ≠ "" := by
    intro h
    rw [h] at hpieces
    have hlast := congrArg List.getLast? hpieces
    simp at hlast
    exact absurd hlast (by decide)
  rw [patternBelow, Path.pieces_join hjoin (by decide), hpieces,
    Path.innerPieces_concat (by decide), List.append_assoc]
  rfl

lemma mapM_parse_escape (ps : List String) :
    (ps.map Glob.escape ++ ["**", "*"]).mapM Glob.parse =
      .ok (ps.map Glob.escaped ++ [anyDirectories, anyName]) := by
  induction ps with
  | nil => decide +kernel
  | cons p ps ih =>
      rw [List.map_cons, List.cons_append, List.mapM_cons, Glob.parse_escape, ih]
      rfl

/-- Where the walk of a directory begins. -/
def origin (fs : FileSystem) (directory : Path) : Entry :=
  if directory.isAbsolute then ⟨"/", []⟩ else ⟨".", fs.workingDirectory⟩

/-- The pieces along which the walk of a directory gets there. -/
def basePieces (directory : Path) : List String :=
  if directory.isAbsolute then Path.innerPieces directory.pieces.tail
  else Path.innerPieces directory.pieces

variable {fs : FileSystem} {directory : Path}

lemma start_patternBelow (hdirectory : directory ≠ "") :
    start fs (Path.pieces (patternBelow directory)) =
      (origin fs directory, (basePieces directory).map Glob.escape ++ ["**", "*"]) := by
  obtain ⟨first, rest, hfirst⟩ := List.exists_cons_of_ne_nil (Path.pieces_ne_nil directory)
  rw [pieces_patternBelow hdirectory, origin, basePieces, hfirst]
  cases habsolute : directory.isAbsolute with
  | true =>
      obtain ⟨_, habsolute⟩ := Path.pieces_of_isAbsolute habsolute
      obtain ⟨rfl, rfl⟩ := List.cons.inj (hfirst.symm.trans habsolute)
      have hne : rest ≠ [] := by
        rintro rfl
        exact hdirectory (by rw [← Path.intercalate_pieces directory, hfirst]; rfl)
      rw [Path.innerPieces_cons (.inr hne)]
      rfl
  | false =>
      have hne : first ≠ "" := by
        rintro rfl
        exact Path.pieces_of_not_isAbsolute hdirectory habsolute rest hfirst
      rw [Path.innerPieces_cons (.inl hne), List.map_cons, List.cons_append, start]
      · rfl
      · intro _ h
        exact hne (Glob.escape_eq_empty_iff.mp (List.cons.inj h).1)

/-! ### One step -/

lemma find_of_plain {glob : Glob} {piece : String} (h : glob.plain? = some piece) (n : Nat)
    (globs : List Glob) (entry : Entry) : find fs (n + 1) (glob :: globs) entry =
      ((entry.follow? fs piece).map (find fs n globs)).getD [] := by
  simp only [find, h]
  cases entry.follow? fs piece <;> rfl

/-- What the walk meets along a piece with wildcards and the pieces after it, from an entry on that
has a name in the directory. -/
def findIn (fs : FileSystem) (n : Nat) (glob : Glob) (globs : List Glob) (name : String)
    (child : Entry) : List (Except Fault Entry) :=
  if glob.isRecursive then
    (match globs with
      | [] => if fs.isDirectoryAt child.location then [.ok child] else []
      | next :: rest => if next.matchesPath name then find fs n rest child else []) ++
      find fs n (glob :: globs) child
  else if glob.matchesPath name then find fs n globs child
  else []

lemma find_of_wild {glob : Glob} (h : glob.plain? = none) (n : Nat) (globs : List Glob)
    {entry : Entry} (hdirectory : fs.isDirectoryAt entry.location = true) :
    find fs (n + 1) (glob :: globs) entry =
      match fs.list entry.location with
      | .error fault => [.error ⟨entry.path, fault⟩]
      | .ok names => names.flatMap fun name =>
          ((entry.child? name).map (findIn fs n glob globs name)).getD [] := by
  simp only [find, h, hdirectory, if_true]
  cases fs.list entry.location with
  | error fault => rfl
  | ok names =>
      refine List.flatMap_congr fun name _ => ?_
      cases entry.child? name <;> rfl

lemma find_of_listed (hlisted : fs.closed = []) {glob : Glob} (h : glob.plain? = none) (n : Nat)
    (globs : List Glob) {entry : Entry} (hdirectory : fs.isDirectoryAt entry.location = true) :
    find fs (n + 1) (glob :: globs) entry = (fs.names entry.location).flatMap fun name =>
      ((entry.child? name).map (findIn fs n glob globs name)).getD [] := by
  rw [find_of_wild h n globs hdirectory, FileSystem.list_eq hlisted]

/-- Where there is no directory the walk does not go on. -/
lemma find_of_not_isDirectoryAt {entry : Entry} (h : fs.isDirectoryAt entry.location = false)
    (n : Nat) (glob : Glob) (globs : List Glob) : find fs n (glob :: globs) entry = [] := by
  cases n with
  | zero => rfl
  | succ n =>
      cases hplain : glob.plain? with
      | some piece =>
          have hnone : entry.follow? fs piece = none := by simp [Entry.follow?, h]
          rw [find_of_plain hplain, hnone]
          rfl
      | none => simp [find, hplain, h]

/-! ### The bound -/

lemma findIn_succ {n : Nat} {glob : Glob} {globs : List Glob} {name : String} {child : Entry}
    (hrest : ∀ rest : List Glob, rest.length ≤ globs.length →
      find fs (n + 1) rest child = find fs n rest child)
    (hagain : find fs (n + 1) (glob :: globs) child = find fs n (glob :: globs) child) :
    findIn fs (n + 1) glob globs name child = findIn fs n glob globs name child := by
  unfold findIn
  rw [hagain, hrest globs (Nat.le_refl _)]
  cases globs with
  | nil => rfl
  | cons next rest =>
      dsimp only
      rw [hrest rest (Nat.le_succ _)]

/-- One step meets the same if going on from there does. -/
lemma find_succ_cons {n : Nat} {glob : Glob} {globs : List Glob} {entry : Entry}
    (hdirectory : fs.isDirectoryAt entry.location = true)
    (hrest : ∀ rest : List Glob, rest.length ≤ globs.length → ∀ next,
      find fs (n + 1) rest next = find fs n rest next)
    (hagain : ∀ path name, find fs (n + 1) (glob :: globs) ⟨path, entry.location ++ [name]⟩ =
      find fs n (glob :: globs) ⟨path, entry.location ++ [name]⟩) :
    find fs (n + 2) (glob :: globs) entry = find fs (n + 1) (glob :: globs) entry := by
  cases hplain : glob.plain? with
  | some piece =>
      rw [find_of_plain hplain, find_of_plain hplain]
      cases entry.follow? fs piece with
      | none => rfl
      | some next => exact hrest globs (Nat.le_refl _) next
  | none =>
      rw [find_of_wild hplain (n + 1) globs hdirectory, find_of_wild hplain n globs hdirectory]
      cases fs.list entry.location with
      | error fault => rfl
      | ok names =>
          refine List.flatMap_congr fun name _ => ?_
          cases hchild : entry.child? name with
          | none => rfl
          | some child =>
              obtain ⟨path, -, rfl⟩ := Option.map_eq_some_iff.mp hchild
              exact findIn_succ (fun rest hlength => hrest rest hlength _) (hagain path name)

/-- **Going on more often meets nothing else.** Each time a piece is used up, or the walk is one
name deeper; and it goes on at directories only. -/
lemma find_succ {n : Nat} {globs : List Glob} {entry : Entry}
    (h : bound fs globs ≤ n + entry.location.length) :
    find fs (n + 1) globs entry = find fs n globs entry := by
  induction n generalizing globs entry with
  | zero =>
      cases globs with
      | nil => rfl
      | cons glob globs =>
          cases hdirectory : fs.isDirectoryAt entry.location with
          | false => exact find_of_not_isDirectoryAt hdirectory 1 glob globs
          | true =>
              have hdepth := FileSystem.length_le_depth_of_isDirectoryAt hdirectory
              rw [bound, List.length_cons, Nat.succ_mul] at h
              omega
  | succ n ih =>
      cases globs with
      | nil => rfl
      | cons glob globs =>
          cases hdirectory : fs.isDirectoryAt entry.location with
          | false => rw [find_of_not_isDirectoryAt hdirectory, find_of_not_isDirectoryAt hdirectory]
          | true =>
              have hdepth := FileSystem.length_le_depth_of_isDirectoryAt hdirectory
              refine find_succ_cons hdirectory (fun rest hlength next => ih ?_)
                fun path name => ih ?_
              · have hle := Nat.mul_le_mul_right (fs.depth + 1) hlength
                rw [bound, List.length_cons, Nat.succ_mul] at h
                rw [bound]
                omega
              · rw [List.length_append, List.length_singleton]
                omega

/-- The bound of a walk does not matter if it is large enough. -/
lemma find_of_bound_le {n : Nat} {globs : List Glob} (h : bound fs globs ≤ n) (entry : Entry) :
    find fs n globs entry = find fs (bound fs globs) globs entry := by
  induction h with
  | refl => rfl
  | step h ih => rw [find_succ (Nat.le_trans h (Nat.le_add_right _ _)), ih]

/-! ### Along the pieces of a directory -/

lemma isDirectoryAt_of_follow {location place : Location} {ps : List String}
    (hfollow : fs.follow location ps = .ok place) (hplace : fs.isDirectoryAt place = true) :
    fs.isDirectoryAt location = true := by
  cases ps with
  | nil => rwa [← Except.ok.inj hfollow] at hplace
  | cons p ps => exact (FileSystem.follow_cons_eq_ok_iff.mp hfollow).1

/-- A piece with a special character leads to what has this name. -/
lemma step_of_isSpecial {piece : String} {c : Char} (hc : c ∈ piece.toList)
    (hspecial : Glob.isSpecial c = true) (location : Location) :
    location.step piece = location ++ [piece] := by
  have hne : ∀ text : String, text.toList.any Glob.isSpecial = false → piece ≠ text := by
    rintro text htext rfl
    exact List.any_eq_false.mp htext c hc hspecial
  exact FileSystem.step_of_component? (Path.component?_of_ne (hne "" (by decide))
    (hne "." (by decide)) (hne ".." (by decide)))

/-- A piece without wildcards leads where it leads as a piece of a path. -/
lemma follow?_eq {entry : Entry} {piece : String}
    (hdirectory : fs.isDirectoryAt entry.location = true)
    (hnext : fs.isDirectoryAt (entry.location.step piece) = true) :
    entry.follow? fs piece =
      (Path.extend? entry.path piece).map fun path => ⟨path, entry.location.step piece⟩ := by
  unfold Entry.follow?
  cases Path.extend? entry.path piece <;> simp [hdirectory, hnext]

/-- One escaped piece leads on to the directory that the piece leads to. A special character in it
makes the walk list the directory and look for the name there. -/
lemma mem_find_escaped_cons (hlisted : fs.closed = []) {entry : Entry} {piece : String}
    (hdirectory : fs.isDirectoryAt entry.location = true)
    (hnext : fs.isDirectoryAt (entry.location.step piece) = true) (n : Nat) (globs : List Glob)
    (item : Except Fault Entry) :
    item ∈ find fs (n + 1) (Glob.escaped piece :: globs) entry ↔
      ∃ path, Path.extend? entry.path piece = some path ∧
        item ∈ find fs n globs ⟨path, entry.location.step piece⟩ := by
  by_cases hspecial : ∃ c ∈ piece.toList, Glob.isSpecial c = true
  · obtain ⟨c, hc, hspecial⟩ := hspecial
    have hstep := step_of_isSpecial hc hspecial entry.location
    rw [hstep] at hnext ⊢
    rw [find_of_listed hlisted (Glob.plain?_escaped_special hc hspecial) n globs hdirectory,
      List.mem_flatMap]
    have hin : ∀ name child, findIn fs n (Glob.escaped piece) globs name child =
        if (Glob.escaped piece).matchesPath name then find fs n globs child else [] := by
      simp [findIn, Glob.isRecursive_escaped]
    constructor
    · rintro ⟨name, -, h⟩
      cases hchild : Path.extend? entry.path name with
      | none => simp [Entry.child?, hchild] at h
      | some path =>
          simp only [Entry.child?, hchild, Option.map_some, Option.getD_some, hin] at h
          split at h
          · rename_i hmatch
            obtain rfl := (Glob.matchesPath_escaped piece name).mp hmatch
            exact ⟨path, hchild, h⟩
          · cases h
    · rintro ⟨path, hpath, h⟩
      refine ⟨piece, FileSystem.mem_names.mpr (.inr hnext), ?_⟩
      have hmatch := (Glob.matchesPath_escaped piece piece).mpr rfl
      simpa [Entry.child?, hpath, hin, hmatch] using h
  · have hplain := Glob.plain?_escaped fun c hc =>
      Bool.eq_false_iff.mpr fun h => hspecial ⟨c, hc, h⟩
    rw [find_of_plain hplain, follow?_eq hdirectory hnext]
    cases Path.extend? entry.path piece <;> simp

/-- **Escaped pieces lead where the pieces lead.** -/
lemma mem_find_escaped (hlisted : fs.closed = []) {ps : List String} {location place : Location}
    (hfollow : fs.follow location ps = .ok place) (hplace : fs.isDirectoryAt place = true)
    (n : Nat) (globs : List Glob) (path : Path) (item : Except Fault Entry) :
    item ∈ find fs (ps.length + n) (ps.map Glob.escaped ++ globs) ⟨path, location⟩ ↔
      ∃ base, ps.foldlM Path.extend? path = some base ∧ item ∈ find fs n globs ⟨base, place⟩ := by
  induction ps generalizing location path with
  | nil =>
      obtain rfl := Except.ok.inj hfollow
      simp
  | cons p ps ih =>
      obtain ⟨hdirectory, hrest⟩ := FileSystem.follow_cons_eq_ok_iff.mp hfollow
      have hnext := isDirectoryAt_of_follow hrest hplace
      rw [List.length_cons, Nat.succ_add, List.map_cons, List.cons_append,
        mem_find_escaped_cons hlisted hdirectory hnext, List.foldlM_cons]
      simp only [ih hrest]
      cases Path.extend? path p <;> simp

/-! ### Below a directory -/

/-- The two wildcards meet what is in a directory, and what they meet from there on. -/
lemma mem_find_below_succ (hlisted : fs.closed = []) {entry : Entry}
    (hdirectory : fs.isDirectoryAt entry.location = true) (n : Nat) (item : Except Fault Entry) :
    item ∈ find fs (n + 1) [anyDirectories, anyName] entry ↔
      ∃ name ∈ fs.names entry.location, ∃ child, entry.child? name = some child ∧
        (item = .ok child ∨ item ∈ find fs n [anyDirectories, anyName] child) := by
  have hend (child : Entry) : find fs n [] child = [.ok child] := by cases n <;> rfl
  have hrecursive : anyDirectories.isRecursive = true := by decide
  rw [find_of_listed hlisted (by decide) n _ hdirectory, List.mem_flatMap]
  refine exists_congr fun name => and_congr_right fun _ => ?_
  cases entry.child? name with
  | none => simp
  | some child => simp [findIn, hrecursive, matchesPath_anyName, hend]

/-- **What the two wildcards meet is below.** -/
lemma exists_of_mem_find_below (hlisted : fs.closed = []) {n : Nat} {entry : Entry}
    {item : Except Fault Entry} (h : item ∈ find fs n [anyDirectories, anyName] entry) :
    ∃ names path, names ≠ [] ∧ names.foldlM Path.extend? entry.path = some path ∧
      item = .ok ⟨path, entry.location ++ names⟩ := by
  induction n generalizing entry with
  | zero => cases h
  | succ n ih =>
      cases hdirectory : fs.isDirectoryAt entry.location with
      | false =>
          rw [find_of_not_isDirectoryAt hdirectory] at h
          cases h
      | true =>
          obtain ⟨name, -, child, hchild, h⟩ := (mem_find_below_succ hlisted hdirectory n item).mp h
          obtain ⟨path, hpath, rfl⟩ := Option.map_eq_some_iff.mp hchild
          rcases h with rfl | h
          · exact ⟨[name], path, by simp, by simp [hpath], rfl⟩
          · obtain ⟨names, other, -, hother, rfl⟩ := ih h
            refine ⟨name :: names, other, by simp, ?_, by simp⟩
            rw [List.foldlM_cons, hpath]
            exact hother

/-- **Every file below is met** if the walk may go on as often as there are names. -/
lemma mem_find_below (htree : fs.IsTree) {n : Nat} {entry : Entry} {names : Location} {path : Path}
    (hne : names ≠ []) (hlength : names.length ≤ n)
    (hpath : names.foldlM Path.extend? entry.path = some path)
    (hfile : (fs.contentAt? (entry.location ++ names)).isSome = true) :
    .ok ⟨path, entry.location ++ names⟩ ∈ find fs n [anyDirectories, anyName] entry := by
  induction names generalizing n entry with
  | nil => exact absurd rfl hne
  | cons name names ih =>
      obtain ⟨n, rfl⟩ := Nat.exists_eq_add_one_of_ne_zero (Nat.ne_zero_of_lt hlength)
      rw [List.foldlM_cons] at hpath
      obtain ⟨next, hnext, hpath⟩ := Option.bind_eq_some_iff.mp hpath
      have hdirectory := htree.isDirectoryAt_of_contentAt? hfile
      have hsplit : entry.location ++ name :: names = entry.location ++ [name] ++ names := by simp
      rw [hsplit] at hfile ⊢
      refine (mem_find_below_succ htree.listed hdirectory n _).mpr
        ⟨name, ?_, ⟨next, entry.location ++ [name]⟩, by simp [Entry.child?, hnext], ?_⟩
      · cases names with
        | nil => exact FileSystem.mem_names.mpr (.inl (by simpa using hfile))
        | cons => exact FileSystem.mem_names.mpr (.inr (htree.isDirectoryAt_of_contentAt? hfile))
      · cases names with
        | nil =>
            obtain rfl : next = path := Option.some.inj hpath
            simp
        | cons other names =>
            refine .inr (@ih n ⟨next, entry.location ++ [name]⟩ (by simp) ?_ hpath hfile)
            exact Nat.le_of_succ_le_succ hlength

/-! ### The walk of a directory -/

lemma foldlM_basePieces (hdirectory : directory ≠ "") :
    (basePieces directory).foldlM Path.extend? (origin fs directory).path =
      directory.walkSpelling? := by
  unfold basePieces origin
  cases habsolute : directory.isAbsolute with
  | true =>
      obtain ⟨rest, hpieces⟩ := Path.pieces_of_isAbsolute habsolute
      simp only [Path.walkSpelling?, hpieces]
      rfl
  | false =>
      have hrelative := Path.pieces_of_not_isAbsolute hdirectory habsolute
      exact (Path.walkSpelling?_of_relative hrelative).symm

lemma follow_basePieces {location : Location} (h : fs.locate directory = .ok location) :
    fs.follow (origin fs directory).location (basePieces directory) = .ok location := by
  have hdirectory := FileSystem.ne_empty_of_locate h
  rw [FileSystem.locate_eq hdirectory, FileSystem.start] at h
  unfold origin basePieces
  cases habsolute : directory.isAbsolute with
  | true =>
      obtain ⟨rest, hpieces⟩ := Path.pieces_of_isAbsolute habsolute
      rw [habsolute, hpieces] at h
      rw [hpieces]
      exact FileSystem.follow_innerPieces (FileSystem.follow_cons_eq_ok_iff.mp h).2
  | false =>
      rw [habsolute] at h
      exact FileSystem.follow_innerPieces h

/-- **The pattern for what is below a directory can be read**, and after the pieces of the directory
the walk may still go down to the deepest place. -/
lemma exists_along_eq (fs : FileSystem) (hdirectory : directory ≠ "") :
    ∃ n, fs.depth ≤ n ∧ along fs (patternBelow directory) =
      .ok (find fs ((basePieces directory).length + n)
        ((basePieces directory).map Glob.escaped ++ [anyDirectories, anyName])
        (origin fs directory)) := by
  refine ⟨bound fs ((basePieces directory).map Glob.escaped ++ [anyDirectories, anyName]), ?_, ?_⟩
  · rw [bound, List.length_append]
    exact Nat.le_trans (Nat.le_succ _) (Nat.le_mul_of_pos_left _ (Nat.succ_pos _))
  · rw [along, start_patternBelow hdirectory]
    simp only [mapM_parse_escape]
    exact congrArg Except.ok (find_of_bound_le (Nat.le_add_left _ _) _).symm

/-- **The walk of a directory** never fails, and the files that it meets are those below the
directory. It meets nothing if the directory is spelled with two slashes after `.`. -/
lemma along_patternBelow (htree : fs.IsTree) {location : Location}
    (hdirectory : fs.directoryAt? directory = some location) :
    ∃ met, along fs (patternBelow directory) = .ok met ∧
      (∀ item ∈ met, ∃ entry, item = .ok entry) ∧
      ∀ entry : Entry, .ok entry ∈ met ∧ (fs.contentAt? entry.location).isSome = true ↔
        directory.breaksOff = false ∧ ∃ names, names ≠ [] ∧
          (fs.contentAt? (location ++ names)).isSome = true ∧
          entry = ⟨directory.under names, location ++ names⟩ := by
  obtain ⟨hlocate, hplace⟩ := FileSystem.directoryAt?_eq_some_iff.mp hdirectory
  have hempty := FileSystem.ne_empty_of_locate hlocate
  obtain ⟨n, hdepth, halong⟩ := exists_along_eq fs hempty
  refine ⟨_, halong, ?_⟩
  have hmem := mem_find_escaped htree.listed (follow_basePieces hlocate) hplace n
    [anyDirectories, anyName] (origin fs directory).path
  simp only [foldlM_basePieces hempty] at hmem
  have hspell : ∀ names, names ≠ [] → (fs.contentAt? (location ++ names)).isSome = true →
      (directory.walkSpelling?.bind fun base => names.foldlM Path.extend? base) =
        if directory.breaksOff then none else some (directory.under names) :=
    fun names hne hfile =>
      Path.walkSpelling?_bind (htree.isName_of_contentAt? hfile) hne hempty
  constructor
  · intro item hitem
    obtain ⟨base, -, hitem⟩ := (hmem item).mp hitem
    obtain ⟨names, path, -, -, rfl⟩ := exists_of_mem_find_below htree.listed hitem
    exact ⟨_, rfl⟩
  · intro entry
    constructor
    · rintro ⟨hitem, hfile⟩
      obtain ⟨base, hbase, hitem⟩ := (hmem _).mp hitem
      obtain ⟨names, path, hne, hpath, heq⟩ := exists_of_mem_find_below htree.listed hitem
      obtain rfl := Except.ok.inj heq
      have hunder := hspell names hne hfile
      rw [hbase, Option.bind_some, hpath] at hunder
      cases hbreaks : directory.breaksOff with
      | true => simp [hbreaks] at hunder
      | false =>
          obtain rfl : path = directory.under names := by simpa [hbreaks] using hunder
          exact ⟨rfl, names, hne, hfile, rfl⟩
    · rintro ⟨hbreaks, names, hne, hfile, rfl⟩
      have hunder := hspell names hne hfile
      rw [hbreaks] at hunder
      obtain ⟨base, hbase, hpath⟩ := Option.bind_eq_some_iff.mp hunder
      refine ⟨(hmem _).mpr ⟨base, hbase, ?_⟩, hfile⟩
      have hlength := FileSystem.length_le_depth (FileSystem.mem_locations.mpr (.inl hfile))
      rw [List.length_append] at hlength
      exact @mem_find_below fs htree _ ⟨base, location⟩ names _ hne (by omega) hpath hfile

end Walk

end Concise
