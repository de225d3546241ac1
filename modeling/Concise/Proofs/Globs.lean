import Mathlib.Data.List.Basic
import Mathlib.Tactic.Lemma
import Concise.Proofs.Paths

/-!
What patterns match, and what is always left out.

* `Glob.matchesAll_chars`, `Glob.matchesAll_anyComponents`: the rules for texts and for the wildcard
  for components.
* `Glob.matchesAll_below`: the wildcard, a name, a slash and the wildcard again match a path exactly
  if the name is one of its pieces before the last. The wildcard may begin only where a component
  begins, so a piece that merely ends with the name does not count.
* `Glob.parse_escape`, `Glob.matchesPath_escaped`: the pattern that a text is escaped to can be
  read, and it is matched by the text and by nothing else.
* `Settings.ignores_default_resolve`: by default exactly the paths below a directory of installed
  packages are left out, and settings only add the patterns that they are given.
-/

namespace Concise

/-! ### Pieces before the last -/

namespace Path

/-- The pieces of a path with slashes between them are the path. -/
lemma intercalate_pieces (path : Path) : "/".intercalate path.pieces = path := by
  have hlist : "/".toList = ['/'] := rfl
  have hchars : path.pieces.map String.toList = path.toList.splitOn '/' := by
    rw [pieces, List.map_map]
    exact List.map_id'' (fun _ => String.toList_ofList) _
  rw [← String.toList_inj, String.toList_intercalate, hlist, hchars, List.intercalate_splitOn]

/-- A name is a piece before the last exactly if it stands at the start of the path or after a
slash, and a slash follows. -/
lemma mem_dropLast_pieces_iff {path : Path} {name : String} (hname : '/' ∉ name.toList) :
    name ∈ path.pieces.dropLast ↔ (∃ rest, path = name ++ "/" ++ rest) ∨
      ∃ front rest, path = front ++ "/" ++ (name ++ "/" ++ rest) := by
  have hbelow (rest : String) : name ∈ (pieces (name ++ "/" ++ rest)).dropLast := by
    rw [pieces_append_slash, pieces_of_not_mem hname,
      List.dropLast_append_of_ne_nil (pieces_ne_nil rest)]
    exact List.mem_append_left _ List.mem_cons_self
  constructor
  · intro h
    have hlast : path.pieces.dropLast ++ [path.pieces.getLast (pieces_ne_nil path)] = path.pieces :=
      List.dropLast_append_getLast _
    obtain ⟨before, after, hsplit⟩ := List.append_of_mem h
    rw [hsplit, List.append_assoc, List.cons_append] at hlast
    have hpath : path = "/".intercalate (before ++
        name :: (after ++ [path.pieces.getLast (pieces_ne_nil path)])) := by
      rw [hlast, intercalate_pieces]
    rcases List.eq_nil_or_concat before with rfl | ⟨_, _, hbefore⟩
    · rw [List.nil_append, intercalate_cons (by simp)] at hpath
      exact .inl ⟨_, hpath⟩
    · rw [String.intercalate_append_of_ne_nil (by simp [hbefore]) (by simp),
        intercalate_cons (by simp)] at hpath
      exact .inr ⟨_, _, hpath⟩
  · rintro (⟨rest, rfl⟩ | ⟨front, rest, rfl⟩)
    · exact hbelow rest
    · rw [pieces_append_slash, List.dropLast_append_of_ne_nil (pieces_ne_nil _)]
      exact List.mem_append_right _ (hbelow rest)

end Path

/-! ### Matching -/

namespace Glob

/-- Besides the empty one, the endings that begin a component are those after a slash. -/
lemma mem_componentEndings_iff {cs tail : List Char} :
    tail ∈ componentEndings cs ↔ tail = [] ∨ ∃ front, cs = front ++ '/' :: tail := by
  induction cs with
  | nil => simp [componentEndings]
  | cons c cs ih =>
      have hcons : (∃ front, c :: cs = front ++ '/' :: tail) ↔
          (c = '/' ∧ tail = cs) ∨ ∃ front, cs = front ++ '/' :: tail := by
        constructor
        · rintro ⟨front, h⟩
          rcases List.cons_eq_append_iff.mp h with ⟨-, h⟩ | ⟨more, -, h⟩
          · obtain ⟨rfl, rfl⟩ := List.cons.inj h
            exact .inl ⟨rfl, rfl⟩
          · exact .inr ⟨more, h⟩
        · rintro (⟨rfl, rfl⟩ | ⟨front, rfl⟩)
          · exact ⟨[], rfl⟩
          · exact ⟨c :: front, rfl⟩
      rw [hcons]
      by_cases hc : c = '/'
      · simp [componentEndings, hc, ih, or_left_comm]
      · simp [componentEndings, hc, ih]

/-- The wildcard for components stands for nothing, for all that is left, or for what comes before
some slash. -/
lemma matchesAll_anyComponents (tokens : List Token) (cs : List Char) :
    matchesAll (.anyComponents :: tokens) cs = true ↔
      matchesAll tokens cs = true ∨ matchesAll tokens [] = true ∨
        ∃ front rest, cs = front ++ '/' :: rest ∧ matchesAll tokens rest = true := by
  simp only [matchesAll, List.any_cons, List.any_eq_true, Bool.or_eq_true,
    mem_componentEndings_iff]
  refine or_congr_right ⟨?_, ?_⟩
  · rintro ⟨tail, rfl | ⟨front, rfl⟩, h⟩
    · exact .inl h
    · exact .inr ⟨front, tail, rfl, h⟩
  · rintro (h | ⟨front, rest, rfl, h⟩)
    · exact ⟨[], .inl rfl, h⟩
    · exact ⟨rest, .inr ⟨front, rfl⟩, h⟩

/-- As the last token, the wildcard stands for whatever is left. -/
lemma matchesAll_anyComponents_nil (cs : List Char) : matchesAll [.anyComponents] cs = true :=
  (matchesAll_anyComponents [] cs).mpr (.inr (.inl rfl))

/-- Characters stand for themselves. -/
lemma matchesAll_chars (name : List Char) (tokens : List Token) (cs : List Char) :
    matchesAll (name.map Token.char ++ tokens) cs = true ↔
      ∃ rest, cs = name ++ rest ∧ matchesAll tokens rest = true := by
  induction name generalizing cs with
  | nil => simp
  | cons c name ih =>
      cases cs with
      | nil => simp [matchesAll]
      | cons d cs =>
          simp only [List.map_cons, List.cons_append, matchesAll, Token.covers, Bool.and_eq_true,
            beq_iff_eq, ih, List.cons.injEq]
          exact ⟨fun ⟨hd, rest, hcs, h⟩ => ⟨rest, ⟨hd, hcs⟩, h⟩,
            fun ⟨rest, ⟨hd, hcs⟩, h⟩ => ⟨hd, rest, hcs, h⟩⟩

/-- The tokens for what stands anywhere below a directory with the given name. -/
def below (name : String) : List Token :=
  .anyComponents :: (name.toList.map Token.char ++ [.char '/', .anyComponents])

/-- **What stands below a directory with a name.** -/
lemma matchesAll_below {name : String} (hname : '/' ∉ name.toList) (path : Path) :
    matchesAll (below name) path.toList = true ↔ name ∈ path.pieces.dropLast := by
  have hslash (cs : List Char) : matchesAll [.char '/', .anyComponents] cs = true ↔
      ∃ rest : String, cs = '/' :: rest.toList := by
    rw [show ([.char '/', .anyComponents] : List Token) = ['/'].map Token.char ++ [.anyComponents]
      from rfl, matchesAll_chars]
    constructor
    · rintro ⟨rest, rfl, -⟩
      exact ⟨String.ofList rest, by simp⟩
    · rintro ⟨rest, rfl⟩
      exact ⟨rest.toList, rfl, matchesAll_anyComponents_nil _⟩
  have hstart (cs : List Char) :
      matchesAll (name.toList.map Token.char ++ [.char '/', .anyComponents]) cs = true ↔
        ∃ rest : String, cs = (name ++ "/" ++ rest).toList := by
    rw [matchesAll_chars]
    constructor
    · rintro ⟨more, rfl, h⟩
      obtain ⟨rest, rfl⟩ := (hslash more).mp h
      exact ⟨rest, by simp⟩
    · rintro ⟨rest, rfl⟩
      exact ⟨'/' :: rest.toList, by simp, (hslash _).mpr ⟨rest, rfl⟩⟩
  rw [below, matchesAll_anyComponents, Path.mem_dropLast_pieces_iff hname]
  refine or_congr ?_ ?_
  · simp only [hstart, String.toList_inj]
  · -- nothing is left of the path once it has been passed over as a whole
    have hend : ¬ matchesAll (name.toList.map Token.char ++ [.char '/', .anyComponents]) [] =
        true := by
      rw [hstart]
      simp
    rw [or_iff_right hend]
    simp only [hstart]
    constructor
    · rintro ⟨front, -, hpath, rest, rfl⟩
      refine ⟨String.ofList front, rest, ?_⟩
      rw [← String.toList_inj, hpath]
      simp
    · rintro ⟨front, rest, rfl⟩
      exact ⟨front.toList, (name ++ "/" ++ rest).toList, by simp, rest, rfl⟩

/-! ### Escaping -/

/-- The token that an escaped character is read as. -/
def escapedToken (c : Char) : Token := if isSpecial c then .oneOf [.single c] else .char c

/-- The pattern that a text is escaped to. -/
def escaped (text : String) : Glob := ⟨escape text, text.toList.map escapedToken⟩

lemma isSpecial_iff {c : Char} : isSpecial c = true ↔ c = '?' ∨ c = '*' ∨ c = '[' ∨ c = ']' := by
  simp [isSpecial, or_assoc]

/-- A special character in brackets is a set. -/
lemma set?_special {c : Char} (hc : isSpecial c = true) (rest : List Char) :
    set? (c :: ']' :: rest) = some (.oneOf [.single c], rest) := by
  have hsplit : splitSet? (c :: ']' :: rest) = some ([c], rest) := rfl
  rcases isSpecial_iff.mp hc with rfl | rfl | rfl | rfl <;> simp [set?, hsplit, ranges]

lemma read_special {c : Char} (hc : isSpecial c = true) (n : Nat) (follows : Bool) (position : Nat)
    (rest : List Char) : read (n + 1) follows position ('[' :: c :: ']' :: rest) =
      (read n false (position + 3) rest).map (.oneOf [.single c] :: ·) := by
  have htaken : rest.length + 1 + 1 - rest.length = 2 := by omega
  simp only [read, set?_special hc, List.length_cons, htaken]
  cases read n false (position + 3) rest <;> rfl

lemma read_plain {c : Char} (hc : isSpecial c = false) (n : Nat) (follows : Bool) (position : Nat)
    (rest : List Char) : read (n + 1) follows position (c :: rest) =
      (read n (c == '/') (position + 1) rest).map (.char c :: ·) := by
  rw [read.eq_def]
  simp only
  split
  · cases hc
  · cases hc
  · cases hc
  · cases read n (c == '/') (position + 1) rest <;> rfl

/-- **An escaped text is read as one token for each of its characters.** -/
lemma read_escape (cs : List Char) (n : Nat) (follows : Bool) (position : Nat)
    (hn : (cs.flatMap escapeChar).length < n) :
    read n follows position (cs.flatMap escapeChar) = .ok (cs.map escapedToken) := by
  induction cs generalizing n follows position with
  | nil =>
      obtain ⟨n, rfl⟩ := Nat.exists_eq_add_one_of_ne_zero (Nat.ne_of_gt hn)
      rfl
  | cons c cs ih =>
      obtain ⟨n, rfl⟩ := Nat.exists_eq_add_one_of_ne_zero (Nat.ne_zero_of_lt hn)
      rw [List.flatMap_cons] at hn ⊢
      cases hc : isSpecial c with
      | true =>
          have hchar : escapeChar c = ['[', c, ']'] := if_pos hc
          have htoken : escapedToken c = .oneOf [.single c] := if_pos hc
          simp only [hchar, List.cons_append, List.nil_append, List.length_cons] at hn ⊢
          rw [read_special hc, ih n _ _ (by omega), List.map_cons, htoken]
          rfl
      | false =>
          have hchar : escapeChar c = [c] := if_neg (by simp [hc])
          have htoken : escapedToken c = .char c := if_neg (by simp [hc])
          simp only [hchar, List.cons_append, List.nil_append, List.length_cons] at hn ⊢
          rw [read_plain hc, ih n _ _ (by omega), List.map_cons, htoken]
          rfl

lemma parse_escape (text : String) : parse (escape text) = .ok (escaped text) := by
  have hread : read ((escape text).toList.length + 1) true 0 (escape text).toList =
      .ok (text.toList.map escapedToken) := by
    rw [escape, String.toList_ofList]
    exact read_escape _ _ _ _ (Nat.lt_succ_self _)
  simp only [parse, hread, escaped]
  rfl

/-- Escaped characters stand for themselves. -/
lemma matchesAll_escaped (cs other : List Char) :
    matchesAll (cs.map escapedToken) other = true ↔ other = cs := by
  induction cs generalizing other with
  | nil => simp [matchesAll]
  | cons c cs ih =>
      have hcovers (d : Char) : (escapedToken c).covers d = (d == c) := by
        unfold escapedToken
        split <;> simp [Token.covers, Range.contains]
      have hnil : matchesAll (escapedToken c :: cs.map escapedToken) [] = false := by
        unfold escapedToken
        split <;> rfl
      have hcons (d : Char) (ds : List Char) :
          matchesAll (escapedToken c :: cs.map escapedToken) (d :: ds) =
            ((escapedToken c).covers d && matchesAll (cs.map escapedToken) ds) := by
        unfold escapedToken
        split <;> rfl
      cases other with
      | nil => simp [hnil]
      | cons d ds => simp [hcons, hcovers, ih]

/-- **An escaped text is matched by itself and by nothing else.** -/
lemma matchesPath_escaped (text other : String) :
    (escaped text).matchesPath other = true ↔ other = text := by
  rw [matchesPath, escaped, matchesAll_escaped, String.toList_inj]

lemma isRecursive_escaped (text : String) : (escaped text).isRecursive = false := by
  simp only [isRecursive, escaped, List.contains_eq_mem, List.mem_map, decide_eq_false_iff_not]
  rintro ⟨c, -, hc⟩
  unfold escapedToken at hc
  split at hc <;> cases hc

/-- A text without special characters has no wildcards. -/
lemma plain?_escaped {text : String} (h : ∀ c ∈ text.toList, isSpecial c = false) :
    (escaped text).plain? = some text := by
  have hmapM : ∀ cs : List Char, (∀ c ∈ cs, isSpecial c = false) →
      (cs.map escapedToken).mapM Token.char? = some cs := by
    intro cs hcs
    induction cs with
    | nil => rfl
    | cons c cs ih =>
        have htoken : escapedToken c = .char c := if_neg (by simp [hcs c List.mem_cons_self])
        rw [List.map_cons, List.mapM_cons, htoken, ih fun d hd => hcs d (List.mem_cons_of_mem _ hd)]
        rfl
  simp [plain?, escaped, hmapM _ h]

/-- A special character stands for itself only in brackets, which count as a wildcard. -/
lemma plain?_escaped_special {text : String} {c : Char} (hc : c ∈ text.toList)
    (hspecial : isSpecial c = true) : (escaped text).plain? = none := by
  have hmapM : ∀ cs : List Char, c ∈ cs → (cs.map escapedToken).mapM Token.char? = none := by
    intro cs hcs
    induction cs with
    | nil => cases hcs
    | cons d cs ih =>
        rw [List.map_cons, List.mapM_cons]
        rcases List.mem_cons.mp hcs with rfl | hcs
        · have htoken : escapedToken c = .oneOf [.single c] := if_pos hspecial
          rw [htoken]
          rfl
        · rw [ih hcs]
          cases Token.char? (escapedToken d) <;> rfl
  simp [plain?, escaped, hmapM _ hc]

end Glob

/-! ### Settings -/

namespace Settings

/-- The only default pattern. -/
lemma defaultIgnored_eq :
    defaultIgnored = [⟨"**/node_modules/**", Glob.below "node_modules"⟩] := by
  decide +kernel

/-- Patterns are read one by one, and all of them have to be readable. -/
lemma mem_of_mapM_parsePattern {patterns : List String} {globs : List Glob}
    (h : patterns.mapM parsePattern = .ok globs) {glob : Glob} :
    glob ∈ globs ↔ ∃ pattern ∈ patterns, Glob.parse pattern = .ok glob := by
  induction patterns generalizing globs with
  | nil =>
      obtain rfl : [] = globs := Except.ok.inj h
      simp
  | cons pattern patterns ih =>
      rw [List.mapM_cons, parsePattern] at h
      cases hfirst : Glob.parse pattern with
      | error e =>
          rw [hfirst] at h
          cases h
      | ok first =>
          rw [hfirst] at h
          cases hrest : patterns.mapM parsePattern with
          | error e =>
              rw [hrest] at h
              cases h
          | ok rest =>
              rw [hrest] at h
              obtain rfl : first :: rest = globs := Except.ok.inj h
              simp only [List.mem_cons, ih hrest, exists_eq_or_imp, hfirst, Except.ok.injEq]
              rw [eq_comm]

/-- **What is left out.** By default, the paths with a piece before the last that is `node_modules`,
and no others. Settings leave out the same paths, and besides them only what one of the patterns
given matches. -/
theorem ignores_default_resolve (path : Path) :
    (default.ignores path = true ↔ "node_modules" ∈ path.pieces.dropLast) ∧
      ∀ arguments config settings, resolve arguments config = .ok settings →
        (settings.ignores path = true ↔ default.ignores path = true ∨
          ∃ pattern ∈ config.ignorePatterns ++ arguments.ignorePatterns, ∃ glob,
            Glob.parse pattern = .ok glob ∧ glob.matchesPath path = true) := by
  refine ⟨?_, ?_⟩
  · rw [ignores, default, defaultIgnored_eq, List.any_cons, List.any_nil, Bool.or_false,
      Glob.matchesPath, Glob.matchesAll_below (by decide)]
  · intro arguments config settings h
    cases hglobs : (config.ignorePatterns ++ arguments.ignorePatterns).mapM parsePattern with
    | error e =>
        rw [resolve, hglobs] at h
        cases h
    | ok globs =>
        rw [resolve, hglobs] at h
        obtain rfl := Except.ok.inj h
        simp only [ignores, default, List.any_append, Bool.or_eq_true, List.any_eq_true,
          mem_of_mapM_parsePattern hglobs]
        refine or_congr_right ⟨?_, ?_⟩
        · rintro ⟨glob, ⟨pattern, hpattern, hglob⟩, hmatch⟩
          exact ⟨pattern, hpattern, glob, hglob, hmatch⟩
        · rintro ⟨pattern, hpattern, glob, hglob, hmatch⟩
          exact ⟨glob, ⟨pattern, hpattern, hglob⟩, hmatch⟩

/-- Arguments that leave out what was built. -/
def withoutBuilds : Arguments where
  paths := ["src"]
  quote := none
  config := none
  isDry := false
  prints := false
  extensions := none
  ignorePatterns := ["dist/**"]
  stdinName := "stdin.js"
  workers := none
  verbosity := 0

/-- A piece that resembles the name does not count, and neither does the last one. -/
theorem ignores_lookAlikes : ∃ settings, resolve withoutBuilds {} = .ok settings ∧
    settings.ignores "web/node_modules/pkg/index.js" = true ∧
    settings.ignores "dist/out.js" = true ∧
    settings.ignores "my_node_modules/node_modules" = false := by
  obtain ⟨settings, hsettings⟩ : ∃ settings, resolve withoutBuilds {} = .ok settings := ⟨_, rfl⟩
  have hignores (path : Path) := (ignores_default_resolve path).2 _ _ _ hsettings
  refine ⟨settings, hsettings, ?_, ?_, ?_⟩
  · refine (hignores _).mpr (.inl ((ignores_default_resolve _).1.mpr ?_))
    decide +kernel
  · exact (hignores _).mpr (.inr ⟨"dist/**", by decide, _, rfl, by decide +kernel⟩)
  · rw [← Bool.not_eq_true, hignores, (ignores_default_resolve _).1]
    rintro (hpackages | ⟨pattern, hpattern, glob, hglob, hmatch⟩)
    · revert hpackages
      decide +kernel
    · obtain rfl : pattern = "dist/**" := by simpa [withoutBuilds] using hpattern
      obtain rfl := Except.ok.inj hglob
      revert hmatch
      decide +kernel

end Settings

end Concise
