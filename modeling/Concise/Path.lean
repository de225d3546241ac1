/-!
Paths, as texts with slashes.

* `Path.components` splits a path: repeated slashes, a slash at the end and a `.` inside count for
  nothing; a `.` at the start of a relative path is a component.
* Paths are compared by their components, so two spellings may be one path.
* `Path.extension?` is what follows the last dot of the last component, unless that dot is its
  first character.
-/

namespace Concise

/-- A path as it is spelled. -/
abbrev Path := String

namespace Path

/-- A step of a path. -/
inductive Component where
  | root
  | current
  | parent
  | name (text : String)
deriving DecidableEq, Inhabited

/-- The order of components: the root, then `.`, then `..`, then names by their characters. -/
def Component.compare : Component → Component → Ordering
  | .name a, .name b => Ord.compare a b
  | a, b => Ord.compare (rank a) (rank b)
where
  rank : Component → Nat
  | .root => 0
  | .current => 1
  | .parent => 2
  | .name _ => 3

/-- The spelling of a component. -/
def Component.text : Component → String
  | .root => "/"
  | .current => "."
  | .parent => ".."
  | .name text => text

/-- The parts of a path between its slashes. -/
def pieces (path : Path) : List String :=
  ((path.toList.splitOn '/').map String.ofList)

/-- The component that a part between slashes is, if it counts. -/
def component? : String → Option Component
  | "" => none
  | "." => none
  | ".." => some .parent
  | text => some (.name text)

/-- The components of a path. -/
def components (path : Path) : List Component :=
  match pieces path with
  | "" :: rest => (if path.isEmpty then [] else [.root]) ++ rest.filterMap component?
  | "." :: rest => .current :: rest.filterMap component?
  | all => all.filterMap component?

/-- The order of lists of components. -/
def compareComponents : List Component → List Component → Ordering
  | [], [] => .eq
  | [], _ :: _ => .lt
  | _ :: _, [] => .gt
  | a :: as, b :: bs => (a.compare b).then (compareComponents as bs)

/-- The order of paths, component by component. -/
def compare (a b : Path) : Ordering := compareComponents a.components b.components

/-- Whether two spellings are the same path. -/
def isSame (a b : Path) : Bool := a.components == b.components

/-- The last component, if it is a name. -/
def fileName? (path : Path) : Option String :=
  match path.components.getLast? with
  | some (.name text) => some text
  | _ => none

/-- What follows the last dot of the last component. -/
def extension? (path : Path) : Option String := do
  let name ← fileName? path
  match (name.toList.splitOn '.').reverse with
  | last :: before :: others =>
      if others.isEmpty && before.isEmpty then none else some (String.ofList last)
  | _ => none

end Path

end Concise
