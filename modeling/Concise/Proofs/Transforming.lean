import Mathlib.Tactic.Lemma
import Concise.Transform

/-!
How a transformation can end.

* `transformAs_eq_ok_iff`: a transformation succeeds exactly if the source can be read, and what the
  result is then.
* `transformFile_cases`: the three ways in which the transformation of a file ends.
* `simplified_pos_of_transformFile`: what counts as changed has been simplified.
-/

namespace Concise

variable {name : String} {path : Path} {dialect : Dialect} {options : TransformOptions}
  {source : String} {out : Transformed}

lemma transformAs_of_none (h : Program.parse? dialect false source = none) :
    transformAs name dialect options source = .error (.parse name Program.diagnostics) := by
  rw [transformAs, Program.parse, h]
  rfl

/-- **A transformation succeeds exactly if the source can be read.** Only a source in which
something was simplified is printed. -/
lemma transformAs_eq_ok_iff : transformAs name dialect options source = .ok out ↔
    ∃ program, Program.parse? dialect false source = some program ∧
      out = {
        code :=
          if program.tree.simplify.counts.simplified != 0 then
            { program with tree := program.tree.simplify.tree }.print options.printOptions
          else source
        isChanged := program.tree.simplify.counts.simplified != 0
        counts := program.tree.simplify.counts
        done := program.tree.simplify.done
        pending := program.tree.simplify.pending } := by
  cases hparse : Program.parse? dialect false source with
  | none =>
      rw [transformAs_of_none hparse]
      exact ⟨nofun, nofun⟩
  | some program =>
      rw [transformAs, Program.parse, hparse]
      constructor
      · intro h
        exact ⟨program, rfl, (Except.ok.inj h).symm⟩
      · rintro ⟨_, h, rfl⟩
        obtain rfl := Option.some.inj h
        rfl

/-- The name of a file tells no dialect. -/
lemma transformFile_of_none (h : Dialect.ofPath? path = none) :
    transformFile path options source = .error (.unsupportedExtension path) := by
  rw [transformFile, Dialect.ofPath, h]
  rfl

/-- The name of a file tells the dialect in which the source is read. -/
lemma transformFile_of_some (h : Dialect.ofPath? path = some dialect) :
    transformFile path options source = transformAs path dialect options source := by
  rw [transformFile, Dialect.ofPath, h]
  rfl

/-- **How the transformation of a file can end**: the name tells no dialect, the source is not in
the dialect, or there is a result. Without a change the result is the source itself. -/
lemma transformFile_cases (path : Path) (options : TransformOptions) (source : String) :
    transformFile path options source = .error (.unsupportedExtension path) ∨
      transformFile path options source = .error (.parse path Program.diagnostics) ∨
      ∃ t, transformFile path options source = .ok t ∧
        (t.isChanged = false → t.code = source) := by
  cases hdialect : Dialect.ofPath? path with
  | none => exact .inl (transformFile_of_none hdialect)
  | some dialect =>
      rw [transformFile_of_some hdialect]
      cases hparse : Program.parse? dialect false source with
      | none => exact .inr (.inl (transformAs_of_none hparse))
      | some program =>
          refine .inr (.inr ⟨_, transformAs_eq_ok_iff.mpr ⟨program, hparse, rfl⟩, ?_⟩)
          exact fun hchanged => if_neg (by simpa using hchanged)

/-- In a file that counts as changed something was simplified. -/
lemma simplified_pos_of_transformFile (h : transformFile path options source = .ok out)
    (hchanged : out.isChanged = true) : 1 ≤ out.counts.simplified := by
  cases hdialect : Dialect.ofPath? path with
  | none =>
      rw [transformFile_of_none hdialect] at h
      cases h
  | some dialect =>
      rw [transformFile_of_some hdialect] at h
      obtain ⟨program, -, rfl⟩ := transformAs_eq_ok_iff.mp h
      exact Nat.one_le_iff_ne_zero.mpr (by simpa using hchanged)

end Concise
