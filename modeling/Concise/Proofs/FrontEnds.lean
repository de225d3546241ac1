import Mathlib.Data.List.Basic
import Concise.Command
import Concise.Transformer
import Concise.Proofs.Transforming
import Concise.Proofs.Treatments

/-!
The ways to have a source transformed.

A host program may ask for it, once or as often as it likes; the command may be given it on the
standard input; and a file that holds it may be processed. What is done with the source is the same:
it is `transformFile` with the name of the source and the style of quotes.

* `Transformer.answers_ofQuote`, `Command.perform_source` and `FileSystem.process_source`: what a
  host program, the command and a file make of the result.
* `frontEnds_agree`: all of them together.
-/

namespace Concise

/-! ### Host programs -/

/-- A result tells a host program what a transformation gave. Counts are told as 32-bit words. -/
structure HostResult.Tells (result : HostResult) (t : Transformed) : Prop where
  code_eq : result.code = t.code
  isChanged_eq : result.isChanged = t.isChanged
  shorthand_eq : result.shorthand.toNat = t.counts.shorthand % UInt32.size
  methods_eq : result.methods.toNat = t.counts.methods % UInt32.size

/-- What a host program is answered. -/
inductive HostAnswers : Except Error Transformed → Except Error HostResult → Prop
  | ok {t : Transformed} {result : HostResult} (htells : result.Tells t) :
      HostAnswers (.ok t) (.ok result)
  | error {e e' : Error} (hmessage : e'.message = e.message)
      (hstatus : e'.hostStatus = .genericFailure) : HostAnswers (.error e) (.error e')

namespace Transformer

/-- The answers to calls, each with a source and perhaps its name. -/
def answers (t : Transformer) (calls : List (String × Option String)) :
    List (Except Error HostResult) :=
  calls.map fun call => t.transform call.1 call.2

lemma ofQuote_name (quote : Option QuoteStyle) :
    ofQuote (quote.map (·.name)) = .ok { options := .withQuote (quote.getD .single) } := by
  rcases quote with _ | _ | _ <;> rfl

/-- A host program is answered what the transformation gave. -/
lemma hostAnswers_transform (t : Transformer) (source name : String) :
    HostAnswers (transformFile name t.options source) (t.transform source (some name)) := by
  unfold transform
  rw [Option.getD_some]
  rcases transformFile_cases name t.options source with h | h | ⟨result, h, -⟩
  · rw [h]
    exact .error rfl rfl
  · rw [h]
    exact .error rfl rfl
  · rw [h]
    exact .ok ⟨rfl, rfl, UInt32.toNat_ofNat', UInt32.toNat_ofNat'⟩

/-- Whatever else it is asked, a transformer answers what the transformation gave. -/
lemma answers_ofQuote (source name : String) (quote : Option QuoteStyle) :
    ∃ t, ofQuote (quote.map (·.name)) = .ok t ∧ ∀ before after, ∃ answer,
      (t.answers (before ++ (source, some name) :: after))[before.length]? = some answer ∧
        HostAnswers (transformFile name (.withQuote (quote.getD .single)) source) answer := by
  refine ⟨_, ofQuote_name quote, fun before after => ⟨_, ?_, hostAnswers_transform _ source name⟩⟩
  simp [answers, TransformOptions.withQuote]

end Transformer

/-! ### The command -/

/-- Arguments that ask for the source on the standard input, under a name and with a style of quotes
or none, without a configuration file. -/
structure Arguments.AskForInput (arguments : Arguments) (name : String)
    (quote : Option QuoteStyle) : Prop where
  paths_eq : arguments.paths = ["-"]
  stdinName_eq : arguments.stdinName = name
  quote_eq : arguments.quote = quote
  config_eq : arguments.config = none
  readable : ∀ pattern ∈ arguments.ignorePatterns, (Glob.parse pattern).toOption.isSome = true

namespace Command

lemma exists_mapM_parsePattern {patterns : List String}
    (h : ∀ pattern ∈ patterns, (Glob.parse pattern).toOption.isSome = true) :
    ∃ globs, patterns.mapM Settings.parsePattern = .ok globs := by
  induction patterns with
  | nil => exact ⟨[], rfl⟩
  | cons pattern rest ih =>
      obtain ⟨globs, hglobs⟩ := ih fun other hother => h other (List.mem_cons_of_mem _ hother)
      have hpattern := h pattern List.mem_cons_self
      rw [List.mapM_cons, Settings.parsePattern, hglobs]
      cases hparse : Glob.parse pattern with
      | error e =>
          rw [hparse] at hpattern
          cases hpattern
      | ok glob => exact ⟨glob :: globs, rfl⟩

variable {arguments : Arguments} {name : String} {quote : Option QuoteStyle}

/-- The settings of such arguments print with the given style of quotes, or with single ones. -/
lemma exists_settings (h : arguments.AskForInput name quote) (fs : FileSystem) :
    ∃ settings, Command.settings fs arguments = .ok settings ∧
      settings.transform = .withQuote (quote.getD .single) := by
  obtain ⟨globs, hglobs⟩ := exists_mapM_parsePattern h.readable
  have hprint : Settings.printOptions arguments {} = ⟨quote.getD .single⟩ := by
    rw [Settings.printOptions, h.quote_eq]
    cases quote <;> rfl
  unfold Command.settings Settings.resolve
  rw [h.config_eq]
  simp only [pure, Except.pure, bind, Except.bind, List.nil_append, hglobs, hprint]
  exact ⟨_, rfl, rfl⟩

/-- **The command prints the result of the transformation**, or fails with its error. -/
lemma perform_source (h : arguments.AskForInput name quote) {source : String}
    {surroundings : Surroundings} (hinput : surroundings.input = .text source) (fs : FileSystem) :
    (perform surroundings fs arguments).files = fs ∧
      (perform surroundings fs arguments).result =
        match transformFile name (.withQuote (quote.getD .single)) source with
        | .ok t => .ok (.source t.code)
        | .error e => .error (.source e) := by
  obtain ⟨settings, hsettings, htransform⟩ := exists_settings h fs
  have hstdin : arguments.readsStdin = true := by simp [Arguments.readsStdin, h.paths_eq]
  simp only [perform, hsettings, hstdin, if_true, transformInput, hinput, Content.asText,
    h.stdinName_eq, htransform]
  cases transformFile name (.withQuote (quote.getD .single)) source <;> exact ⟨rfl, rfl⟩

end Command

/-! ### Files -/

/-- What becomes of a file with a source: the outcome in the report, and the text afterwards. -/
inductive FileAnswers (source : String) : Except Error Transformed → Outcome → String → Prop
  | changed {t : Transformed} (hchanged : t.isChanged = true) :
      FileAnswers source (.ok t) (.ok t.counts) t.code
  | unchanged {t : Transformed} (hchanged : t.isChanged = false) (hcode : t.code = source) :
      FileAnswers source (.ok t) .unmodified source
  | skipped {path : String} :
      FileAnswers source (.error (.unsupportedExtension path))
        (.skipped (Error.unsupportedExtension path).message) source
  | failed {path : String} {diagnostics : List String} :
      FileAnswers source (.error (.parse path diagnostics))
        (.error (Error.parse path diagnostics).message) source

/-- **A processed file holds the result of the transformation**, or what it held if there is
none. -/
lemma FileSystem.process_source {fs : FileSystem} {settings : Settings} {path : Path}
    {source : String} (hdry : settings.isDry = false) (hsource : fs.readText path = .ok source) :
    ∃ after, (fs.process settings path).2.readText path = .ok after ∧
      FileAnswers source (transformFile path settings.transform source)
        (fs.process settings path).1.report.outcome after := by
  have hcases := transformFile_cases path settings.transform source
  have htreat : Treatment.Cases settings path (.ok source) (fs.treat settings path) := by
    rw [← hsource]
    exact Treatment.cases_ofRead settings path (fs.readText path)
  have hread := @read_process fs settings path
  have hkept : (fs.treat settings path).written = none →
      (fs.process settings path).2.readText path = .ok source := by
    intro hwritten
    rw [hwritten] at hread
    rw [readText_congr hread, hsource]
  have hreport : (fs.process settings path).1 = fs.treat settings path := rfl
  rw [hreport]
  generalize fs.treat settings path = treatment at htreat hread hkept
  cases htreat with
  | unsupported h =>
      rw [h]
      exact ⟨source, hkept rfl, .skipped⟩
  | failed hother h =>
      rw [h] at hcases ⊢
      rcases hcases with hcase | hcase | ⟨t, hcase, -⟩
      · exact absurd (Except.error.inj hcase) (hother path)
      · rw [Except.error.inj hcase]
        exact ⟨source, hkept rfl, .failed⟩
      · cases hcase
  | unchanged hchanged h =>
      rw [h] at hcases ⊢
      rcases hcases with hcase | hcase | ⟨t, hcase, hcode⟩
      · cases hcase
      · cases hcase
      · obtain rfl := Except.ok.inj hcase
        exact ⟨source, hkept rfl, .unchanged hchanged (hcode hchanged)⟩
  | changed hchanged h =>
      simp only [hdry] at hread
      rw [h, readText, hread]
      exact ⟨_, rfl, .changed hchanged⟩

/-! ### All together -/

/-- **All ways to have a source transformed agree.** Let a source, its name and perhaps a style of
quotes be given, and let `result` be what `transformFile` makes of them; without a style, single
quotes are used. Then a host program is answered `result`, at any place among other calls. The
command with the source on its standard input prints the code of `result`, or fails with its error,
and touches no file. A file with the source holds the code of `result` after it was processed, or
the source if there is an error; the report says which error it is. -/
theorem frontEnds_agree {source name : String} {quote : Option QuoteStyle}
    {result : Except Error Transformed}
    (hresult : transformFile name (.withQuote (quote.getD .single)) source = result) :
    HostAnswers result (Transformer.transformOnce source (some name) (quote.map (·.name))) ∧
    (∃ t, Transformer.ofQuote (quote.map (·.name)) = .ok t ∧ ∀ before after, ∃ answer,
      (t.answers (before ++ (source, some name) :: after))[before.length]? = some answer ∧
        HostAnswers result answer) ∧
    (∀ surroundings fs arguments, surroundings.input = .text source →
      arguments.AskForInput name quote →
      (Command.perform surroundings fs arguments).files = fs ∧
      (∀ t, result = .ok t →
        ∃ completion, (Command.perform surroundings fs arguments).result = .ok completion ∧
          completion.output = t.code ∧ completion.exitCode = 0) ∧
      ∀ e, result = .error e →
        (Command.perform surroundings fs arguments).result = .error (.source e)) ∧
    ∀ (fs : FileSystem) (settings : Settings),
      settings.transform = .withQuote (quote.getD .single) → settings.isDry = false →
      fs.readText name = .ok source →
      ∃ after, (fs.process settings name).2.readText name = .ok after ∧
        (∀ t, result = .ok t → after = t.code ∧ (t.isChanged = false → after = source)) ∧
        (∀ e, result = .error e → after = source) ∧
        ((∃ reason, (fs.process settings name).1.report.outcome = .skipped reason) ↔
          ∃ path, result = .error (.unsupportedExtension path)) ∧
        ((∃ message, (fs.process settings name).1.report.outcome = .error message) ↔
          ∃ path diagnostics, result = .error (.parse path diagnostics)) := by
  subst hresult
  refine ⟨?_, Transformer.answers_ofQuote source name quote, ?_, ?_⟩
  · rw [Transformer.transformOnce, Transformer.ofQuote_name]
    exact Transformer.hostAnswers_transform _ source name
  · intro surroundings fs arguments hinput harguments
    obtain ⟨hfiles, hperform⟩ := Command.perform_source harguments hinput fs
    refine ⟨hfiles, ?_, ?_⟩
    · intro t ht
      rw [ht] at hperform
      exact ⟨_, hperform, rfl, rfl⟩
    · intro e he
      rw [he] at hperform
      exact hperform
  · intro fs settings htransform hdry hsource
    obtain ⟨after, hafter, hanswers⟩ := FileSystem.process_source hdry hsource
    rw [htransform] at hanswers
    refine ⟨after, hafter, ?_⟩
    -- The four ways in which a file is answered differ in the result as well as in the outcome.
    generalize transformFile name (.withQuote (quote.getD .single)) source = result at hanswers
    generalize (fs.process settings name).1.report.outcome = outcome at hanswers
    cases hanswers <;> simp_all

/-- A source with a string in double quotes and a property to shorten. -/
def quotedSource : String := "f(\"a\", \x7bb: b\x7d)"

/-- A file with this source. -/
def quotedTree : FileSystem where
  files := [(["a.js"], .text quotedSource)]

/-- The arguments `- --stdin-filename a.js --ignore-pattern dist/**`. -/
def inputArguments : Arguments :=
  { (default : Arguments) with
    paths := ["-"], stdinName := "a.js", ignorePatterns := ["dist/**"] }

/-- Without a style of quotes, all four ways give the source with single quotes and the shorter
property. -/
theorem frontEnds_agree_quotedSource : ∃ t,
    transformFile "a.js" (.withQuote .single) quotedSource = .ok t ∧
      t.code = "f('a', \x7b b \x7d);\n" ∧
      HostAnswers (.ok t) (Transformer.transformOnce quotedSource (some "a.js") none) ∧
      (∃ completion, (Command.perform { input := .text quotedSource } {} inputArguments).result =
        .ok completion ∧ completion.output = t.code) ∧
      (quotedTree.process .default "a.js").2.readText "a.js" = .ok t.code := by
  have hcode : (transformFile "a.js" (.withQuote .single) quotedSource).map (·.code) =
      .ok "f('a', \x7b b \x7d);\n" := by decide +kernel
  cases hresult : transformFile "a.js" (.withQuote .single) quotedSource with
  | error e =>
      rw [hresult] at hcode
      cases hcode
  | ok t =>
      rw [hresult] at hcode
      obtain ⟨honce, -, hperform, hprocess⟩ := @frontEnds_agree quotedSource "a.js" none _ hresult
      have harguments : inputArguments.AskForInput "a.js" none :=
        ⟨rfl, rfl, rfl, rfl, by decide +kernel⟩
      obtain ⟨completion, hcompletion, houtput, -⟩ :=
        (hperform { input := .text quotedSource } {} inputArguments rfl harguments).2.1 t rfl
      obtain ⟨after, hafter, hok, -⟩ := hprocess quotedTree .default rfl rfl (by decide +kernel)
      rw [(hok t rfl).1] at hafter
      exact ⟨t, rfl, Except.ok.inj hcode, honce, ⟨completion, hcompletion, houtput⟩, hafter⟩

end Concise
