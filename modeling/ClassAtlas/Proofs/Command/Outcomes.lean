import ClassAtlas.Command.Arguments
import ClassAtlas.Command.Run
import ClassAtlas.Proofs.Command.Configuration
import ClassAtlas.Proofs.Symbols.FullName

/-!
# How a run ends

A run ends with the first step that fails, and only a run in which none fails writes to the standard
output. `Ends` lists the ways to end, one rule for each; the premises of a rule say that the steps
before have not failed. The theorem at the end shows that every run ends in one of these ways and in
no other, whatever reads the arguments and the documents, as long as settings are read as documented
and there is a tree for every source. Settings are validated when they are loaded and again after
the arguments have changed them, but what the arguments change is never a reason to refuse them.
-/
namespace ClassAtlas.Command

open Text.Utf8 (text? lossyText)

/-! ### Libraries -/

namespace Libraries

/-- What is documented of the libraries: configurations are read as they should be, and a parser
gives a tree for every source. -/
structure Documented (l : Libraries) : Prop where
  configures : l.configuration.Documented
  parses : ∀ source, ∃ file, l.parse source = some file

theorem Documented.settings_iff {l : Libraries} (documented : l.Documented) {text : String}
    {entries : Toml.Entries} (document : l.configuration.entries text = some entries)
    {settings : Settings} :
    l.configuration.settings entries = some settings ↔ settings.SaidBy entries :=
  documented.configures.settings_iff entries settings
    (documented.configures.keysOnce text entries document)

/-- The arguments ask for help or for the version. -/
def informs (l : Libraries) (arguments : List SystemText) : Bool :=
  match l.arguments arguments with
  | .error halt => !halt.isError
  | .ok _ => false

end Libraries

/-! ### Configurations -/

section Configurations

variable {l : Libraries} {reading : Reading} {settings : Settings}

/-- A configuration file holds these settings, and they can be used. -/
inductive Configures (l : Libraries) : Reading → Settings → Prop
  | said {bytes : List UInt8} {text : String} {entries : Toml.Entries} {settings : Settings} :
      text? bytes = some text → l.configuration.entries text = some entries →
      settings.SaidBy entries → settings.flaw? = none → Configures l (.content bytes) settings

/-- A configuration file cannot be used. -/
inductive Misconfigures (l : Libraries) : Reading → Prop
  | missing : Misconfigures l .absent
  | unreadable (cause : String) : Misconfigures l (.unreadable cause)
  | undecodable {bytes : List UInt8} : text? bytes = none → Misconfigures l (.content bytes)
  | noDocument {bytes : List UInt8} {text : String} : text? bytes = some text →
      l.configuration.entries text = none → Misconfigures l (.content bytes)
  | unsaid {bytes : List UInt8} {text : String} {entries : Toml.Entries} :
      text? bytes = some text → l.configuration.entries text = some entries →
      (∀ settings : Settings, ¬settings.SaidBy entries) → Misconfigures l (.content bytes)
  | rejected {bytes : List UInt8} {text : String} {entries : Toml.Entries} {settings : Settings}
      {flaw : Settings.Flaw} : text? bytes = some text →
      l.configuration.entries text = some entries → settings.SaidBy entries →
      settings.flaw? = some flaw → Misconfigures l (.content bytes)

theorem configures_or_misconfigures (l : Libraries) (reading : Reading) :
    (∃ settings, Configures l reading settings) ∨ Misconfigures l reading := by
  cases reading with
  | absent => exact .inr .missing
  | unreadable cause => exact .inr (.unreadable cause)
  | content bytes =>
    cases decoded : text? bytes with
    | none => exact .inr (.undecodable decoded)
    | some text =>
      cases document : l.configuration.entries text with
      | none => exact .inr (.noDocument decoded document)
      | some entries =>
        by_cases said : ∃ settings : Settings, settings.SaidBy entries
        · obtain ⟨settings, said⟩ := said
          cases usable : settings.flaw? with
          | none => exact .inl ⟨settings, .said decoded document said usable⟩
          | some flaw => exact .inr (.rejected decoded document said usable)
        · exact .inr (.unsaid decoded document (not_exists.mp said))

theorem flaw?_of_configures (configures : Configures l reading settings) :
    settings.flaw? = none := by
  cases configures with
  | said _ _ _ usable => exact usable

theorem validate_of_flaw?_none (usable : settings.flaw? = none) : settings.validate = .ok () := by
  simp [Settings.validate, usable]

variable {read : SystemText → Reading} {path : SystemText}

theorem load_of_configures (documented : l.Documented)
    (configures : Configures l (read path) settings) :
    Settings.load l.configuration read path = .ok settings := by
  generalize found : read path = reading at configures
  cases configures with
  | said decoded document said usable =>
    have settled := (documented.settings_iff document).mpr said
    simp only [Settings.load, found, decoded, Settings.ofText, document, Option.bind_some, settled]
    rw [validate_of_flaw?_none usable]
    rfl

theorem load_of_misconfigures (documented : l.Documented) (wrong : Misconfigures l (read path)) :
    ∃ failure, Settings.load l.configuration read path = .error (.config failure) := by
  generalize found : read path = reading at wrong
  cases wrong with
  | missing => exact ⟨.missing path, by simp [Settings.load, found]⟩
  | unreadable cause => exact ⟨.unreadable path cause, by simp [Settings.load, found]⟩
  | undecodable decoded =>
    exact ⟨.unreadable path Failure.invalidUtf8, by simp [Settings.load, found, decoded]⟩
  | noDocument decoded document =>
    exact ⟨.malformed, by simp [Settings.load, found, decoded, Settings.ofText, document]⟩
  | @unsaid _ _ entries decoded document unsaid =>
    have nothing : l.configuration.settings entries = none :=
      Option.eq_none_iff_forall_not_mem.mpr fun settings settled =>
        unsaid settings ((documented.settings_iff document).mp settled)
    exact ⟨.malformed, by simp [Settings.load, found, decoded, Settings.ofText, document, nothing]⟩
  | @rejected _ _ entries settings flaw decoded document said flawed =>
    refine ⟨.flaw flaw, ?_⟩
    have settled := (documented.settings_iff document).mpr said
    simp only [Settings.load, found, decoded, Settings.ofText, document, Option.bind_some, settled]
    rw [Settings.validate, flawed]
    rfl

end Configurations

/-! ### The ways to end -/

namespace Invocation

/-- The settings that hold before the arguments change them. -/
inductive Configured (i : Invocation) (l : Libraries) (s : Surroundings) : Settings → Prop
  | standard : i.config? = none → Configured i l s .standard
  | file {path : SystemText} {settings : Settings} : i.config? = some path →
      Configures l (s.read path) settings → Configured i l s settings

/-- The text that names the source: the argument with its faults replaced, or the standard input. -/
inductive Names (i : Invocation) (s : Surroundings) : String → Prop
  | argument {given : SystemText} : i.path? = some given → Names i s given.shown
  | standardInput {written : String} : i.path? = none → text? s.standardInput = some written →
      Names i s written

end Invocation

open Invocation

/-- The arguments lead to this exit code, with this text on the standard output. -/
inductive Ends (l : Libraries) (s : Surroundings) (arguments : List SystemText) :
    Nat → String → Prop
  | misuse {halt : Halt} : l.arguments arguments = .error halt → halt.isError = true →
      Ends l s arguments 1 ""
  | misconfigured {i : Invocation} {path : SystemText} : l.arguments arguments = .ok i →
      i.config? = some path → Misconfigures l (s.read path) → Ends l s arguments 1 ""
  | inputUndecodable {i : Invocation} {base : Settings} : l.arguments arguments = .ok i →
      i.Configured l s base → i.path? = none → text? s.standardInput = none →
      Ends l s arguments 2 ""
  | pathBlank {i : Invocation} {base : Settings} {written : String} :
      l.arguments arguments = .ok i → i.Configured l s base → i.Names s written →
      Text.trim written = "" → Ends l s arguments 1 ""
  | sourceUnreadable {i : Invocation} {base : Settings} {written : String} :
      l.arguments arguments = .ok i → i.Configured l s base → i.Names s written →
      Text.trim written ≠ "" →
      (∀ bytes, s.read (.ofText (Text.trim written)) ≠ .content bytes) → Ends l s arguments 1 ""
  | described {i : Invocation} {base settings : Settings} {written : String} {bytes : List UInt8}
      {file : ParsedFile} :
      l.arguments arguments = .ok i → i.Configured l s base → i.Names s written →
      Text.trim written ≠ "" → s.read (.ofText (Text.trim written)) = .content bytes →
      settings = { base with
        profile := i.profile?.getD base.profile, pretty := base.pretty || i.pretty } →
      l.parse ⟨.ofText (Text.trim written), withoutByteOrderMark (lossyText bytes)⟩ = some file →
      Ends l s arguments 0
        (ClassDescriptor.document (file.describe settings (Text.trim written)).classes
          settings.pretty ++ "\n")

variable {l : Libraries} {s : Surroundings} {i : Invocation}

namespace Invocation

theorem configured_or_misconfigured (i : Invocation) (l : Libraries) (s : Surroundings) :
    (∃ base, i.Configured l s base) ∨
      ∃ path, i.config? = some path ∧ Misconfigures l (s.read path) := by
  cases config : i.config? with
  | none => exact .inl ⟨.standard, .standard config⟩
  | some path =>
    rcases configures_or_misconfigures l (s.read path) with ⟨settings, configures⟩ | wrong
    · exact .inl ⟨settings, .file config configures⟩
    · exact .inr ⟨path, rfl, wrong⟩

theorem names_or_undecodable (i : Invocation) (s : Surroundings) :
    (∃ written, i.Names s written) ∨ i.path? = none ∧ text? s.standardInput = none := by
  cases given : i.path? with
  | some path => exact .inl ⟨path.shown, .argument given⟩
  | none =>
    cases decoded : text? s.standardInput with
    | some written => exact .inl ⟨written, .standardInput given decoded⟩
    | none => exact .inr ⟨rfl, rfl⟩

/-! ### Preparing -/

/-- The settings before the arguments change them. -/
def configured (i : Invocation) (l : Libraries) (s : Surroundings) : Except Failure Settings :=
  match i.config? with
  | none => .ok .standard
  | some path => Settings.load l.configuration s.read path

/-- The source that is meant. -/
def locate (i : Invocation) (s : Surroundings) : Except Failure SourceFile := do
  SourceFile.load s.read (← inputPath i.path? s.standardInput)

theorem prepare_eq (i : Invocation) (l : Libraries) (s : Surroundings) : i.prepare l s = do
    let base ← i.configured l s
    let source ← i.locate s
    (i.override base).validate
    return (i.override base, source) := by
  cases config : i.config? <;> simp [prepare, configured, locate, config]

theorem prepare_of_misconfigures (documented : l.Documented) {path : SystemText}
    (config : i.config? = some path) (wrong : Misconfigures l (s.read path)) :
    ∃ failure, i.prepare l s = .error (.config failure) := by
  obtain ⟨failure, loaded⟩ := load_of_misconfigures documented wrong
  refine ⟨failure, ?_⟩
  rw [prepare_eq, configured, config]
  simp only [loaded]
  rfl

/-- The arguments change nothing that is validated. -/
theorem flaw?_override (i : Invocation) (settings : Settings) :
    (i.override settings).flaw? = settings.flaw? := rfl

theorem Configured.configured_eq (documented : l.Documented) {base : Settings}
    (configured : i.Configured l s base) : i.configured l s = .ok base ∧ base.flaw? = none := by
  cases configured with
  | standard none_given => exact ⟨by simp [Invocation.configured, none_given], by decide +kernel⟩
  | file given configures =>
    exact ⟨by simp [Invocation.configured, given, load_of_configures documented configures],
      flaw?_of_configures configures⟩

/-- With a usable configuration, only the source can be missing. -/
theorem prepare_of_configured (documented : l.Documented) {base : Settings}
    (configured : i.Configured l s base) :
    i.prepare l s = (i.locate s).map fun source => (i.override base, source) := by
  obtain ⟨chosen, usable⟩ := configured.configured_eq documented
  -- The second validation passes, since the first one did.
  have valid := validate_of_flaw?_none ((flaw?_override i base).trans usable)
  rw [prepare_eq, chosen]
  cases found : i.locate s with
  | error failure => rfl
  | ok source =>
    simp only [Except.map, bind, Except.bind, valid]
    rfl

theorem locate_of_undecodable (no_path : i.path? = none)
    (undecodable : text? s.standardInput = none) :
    i.locate s = .error (.io Failure.invalidUtf8) := by
  simp only [locate, inputPath, no_path, undecodable]
  rfl

theorem Names.locate_eq {written : String} (names : i.Names s written) :
    i.locate s = (trimmedPath written).bind (SourceFile.load s.read) := by
  cases names with
  | argument given => simp only [locate, inputPath, given]; rfl
  | standardInput no_path decoded => simp only [locate, inputPath, no_path, decoded]; rfl

theorem Names.locate_of_blank {written : String} (names : i.Names s written)
    (blank : Text.trim written = "") : i.locate s = .error .emptyPath := by
  simp [names.locate_eq, trimmedPath, blank, Except.bind]

theorem Names.locate_of_ne_empty {written : String} (names : i.Names s written)
    (visible : Text.trim written ≠ "") :
    i.locate s = SourceFile.load s.read (.ofText (Text.trim written)) := by
  simp [names.locate_eq, trimmedPath, visible, Except.bind]

end Invocation

section Sources

variable {read : SystemText → Reading} {path : SystemText}

theorem load_of_unreadable (unreadable : ∀ bytes, read path ≠ .content bytes) :
    ∃ failure, SourceFile.load read path = .error failure ∧ failure.isInputFailure = true := by
  cases found : read path with
  | absent => exact ⟨.notFound path, by simp [SourceFile.load, found], rfl⟩
  | unreadable cause => exact ⟨.unreadable path cause, by simp [SourceFile.load, found], rfl⟩
  | content bytes => exact absurd found (unreadable bytes)

theorem load_of_content {bytes : List UInt8} (found : read path = .content bytes) :
    SourceFile.load read path = .ok ⟨path, withoutByteOrderMark (lossyText bytes)⟩ := by
  simp [SourceFile.load, found]

end Sources

/-! ### Running -/

section Running

variable {arguments : List SystemText}

theorem run_of_prepare_error (asked : l.arguments arguments = .ok i) {failure : Failure}
    (unprepared : i.prepare l s = .error failure) :
    (run l arguments s).status.code = (if failure.isInputFailure then 1 else 2) ∧
      (run l arguments s).standardOutput = "" := by
  have ended : run l arguments s = failed failure := by simp only [run, asked, unprepared]
  rw [ended, failed]
  cases failure.isInputFailure <;> exact ⟨rfl, rfl⟩

theorem run_of_locate_error (documented : l.Documented) (asked : l.arguments arguments = .ok i)
    {base : Settings} (configured : i.Configured l s base) {failure : Failure}
    (missing : i.locate s = .error failure) :
    (run l arguments s).status.code = (if failure.isInputFailure then 1 else 2) ∧
      (run l arguments s).standardOutput = "" := by
  apply run_of_prepare_error asked
  rw [prepare_of_configured documented configured, missing]
  rfl

theorem run_of_prepared (asked : l.arguments arguments = .ok i) {settings : Settings}
    {source : SourceFile} (prepared : i.prepare l s = .ok (settings, source)) {file : ParsedFile}
    (parsed : l.parse source = some file) :
    (run l arguments s).status.code = 0 ∧ (run l arguments s).standardOutput =
      ClassDescriptor.document (file.describe settings source.path.shown).classes
        settings.pretty ++ "\n" := by
  simp only [run, asked, prepared, Invocation.describe, SourceFile.describe, parsed]
  exact ⟨rfl, rfl⟩

theorem Ends.run_eq (documented : l.Documented) {code : Nat} {output : String}
    (ends : Ends l s arguments code output) :
    (run l arguments s).status.code = code ∧ (run l arguments s).standardOutput = output := by
  cases ends with
  | misuse wrong isError =>
    simp only [run, wrong, Halt.outcome, isError]
    exact ⟨rfl, rfl⟩
  | misconfigured asked config wrong =>
    obtain ⟨failure, unprepared⟩ := prepare_of_misconfigures documented config wrong
    exact run_of_prepare_error asked unprepared
  | inputUndecodable asked configured no_path undecodable =>
    exact run_of_locate_error documented asked configured
      (locate_of_undecodable no_path undecodable)
  | pathBlank asked configured names blank =>
    exact run_of_locate_error documented asked configured (names.locate_of_blank blank)
  | sourceUnreadable asked configured names visible unreadable =>
    obtain ⟨failure, missing, input⟩ := load_of_unreadable unreadable
    have ended := run_of_locate_error documented asked configured
      ((names.locate_of_ne_empty visible).trans missing)
    rwa [if_pos input] at ended
  | @described i base settings written bytes file asked configured names visible found chosen
      parsed =>
    have located := (names.locate_of_ne_empty visible).trans (load_of_content found)
    have prepared : i.prepare l s = .ok (settings,
        ⟨.ofText (Text.trim written), withoutByteOrderMark (lossyText bytes)⟩) := by
      rw [prepare_of_configured documented configured, located, chosen]
      rfl
    simpa only [SystemText.shown_ofText] using run_of_prepared asked prepared parsed

/-- There is a way to end for all arguments but those that ask for help or for the version. -/
theorem exists_ends (documented : l.Documented) (uninformed : l.informs arguments = false) :
    ∃ code output, Ends l s arguments code output := by
  -- The cases follow the steps of a run: where one fails, its rule applies.
  cases asked : l.arguments arguments with
  | error halt =>
    have isError : halt.isError = true := by simpa [Libraries.informs, asked] using uninformed
    exact ⟨1, "", .misuse asked isError⟩
  | ok i =>
    rcases i.configured_or_misconfigured l s with ⟨base, configured⟩ | ⟨path, config, wrong⟩
    · rcases i.names_or_undecodable s with ⟨written, names⟩ | ⟨no_path, undecodable⟩
      · by_cases blank : Text.trim written = ""
        · exact ⟨1, "", .pathBlank asked configured names blank⟩
        · by_cases found : ∃ bytes, s.read (.ofText (Text.trim written)) = .content bytes
          · obtain ⟨bytes, found⟩ := found
            obtain ⟨file, parsed⟩ := documented.parses _
            exact ⟨0, _, .described asked configured names blank found rfl parsed⟩
          · exact ⟨1, "", .sourceUnreadable asked configured names blank (not_exists.mp found)⟩
      · exact ⟨2, "", .inputUndecodable asked configured no_path undecodable⟩
    · exact ⟨1, "", .misconfigured asked config wrong⟩

end Running

/-- A run that is asked for a description ends in one of the listed ways and in no other: its exit
code is that of the first step that fails, and its standard output is empty unless none does. -/
theorem run_ends_iff (l : Libraries) (documented : l.Documented) (s : Surroundings)
    (arguments : List SystemText) (uninformed : l.informs arguments = false) (code : Nat)
    (output : String) :
    (run l arguments s).status.code = code ∧ (run l arguments s).standardOutput = output ↔
      Ends l s arguments code output := by
  constructor
  -- A run ends somehow, and a run has only one outcome.
  · rintro ⟨rfl, rfl⟩
    obtain ⟨code, output, ends⟩ := exists_ends documented uninformed
    obtain ⟨same_code, same_output⟩ := ends.run_eq documented
    rwa [same_code, same_output]
  · exact Ends.run_eq documented

/-! ### A directory with configurations -/

/-- `abstract class Page { }` -/
def abstractPage : Tree :=
  firstRowTree "compilation_unit" none 0 "abstract class Page \x7b \x7d"
    [firstRowTree "class_declaration" none 0 "abstract class Page \x7b \x7d"
      [firstRowTree "modifier" none 0 "abstract" [],
        firstRowTree "identifier" (some "name") 15 "Page" [],
        firstRowTree "declaration_list" (some "body") 20 "\x7b \x7d" []]]

/-- A source, a configuration, one with a flaw, and a file whose name is no text. -/
def shelf : Directory := .ofPaths
  [(.ofText "Page.cs", .file (Text.Utf8.encode abstractPage.info.text)),
    (.ofText "surface.toml",
      .file (Text.Utf8.encode "profile = 'public-surface'\nnamespace_sentinel = 'Root'")),
    (.ofText "flawed.toml", .file (Text.Utf8.encode "indent = 'x'")),
    (⟨[0x50, 0xE9]⟩, .file [])]

/-- The shelf, with a byte on the standard input that is no text. -/
def shelfSurroundings : Surroundings := ⟨shelf.read, [0xFF]⟩

/-- The readers that the command is built with, and a parser that knows the page. -/
def shelfLibraries : Libraries where
  arguments := Invocation.ofArguments
  configuration := .toml
  parse source :=
    if source.text = abstractPage.info.text then some ⟨abstractPage, false⟩
    else some ⟨firstRowTree "compilation_unit" none 0 source.text [], false⟩

/-- The configuration leaves the page out; when the arguments ask for the full profile, the page is
described with the namespace of the configuration. A flawed configuration and a file whose name is
no text are the user's faults, a standard input that is no text is not. -/
theorem shelf_ends :
    shelfLibraries.Documented ∧
      Ends shelfLibraries shelfSurroundings (["--config", "surface.toml", "Page.cs"].map .ofText)
        0 "[]\n" ∧
      Ends shelfLibraries shelfSurroundings
        (["--profile=full", " Page.cs", "--config=surface.toml"].map .ofText) 0
        ("[\x7b\"FilePath\":\"Page.cs\",\"NamespaceName\":\"Root\",\"ClassName\":\"Page\"," ++
          "\"IsStatic\":false,\"IsAbstract\":true,\"Constructors\":[],\"Methods\":[]," ++
          "\"Properties\":[],\"UsingDirectives\":[]," ++
          "\"ReferencedTypeDefinitions\":\x7b\x7d\x7d]\n") ∧
      Ends shelfLibraries shelfSurroundings (["--config", "flawed.toml", "Page.cs"].map .ofText)
        1 "" ∧
      Ends shelfLibraries shelfSurroundings [⟨[0x50, 0xE9]⟩] 1 "" ∧
      Ends shelfLibraries shelfSurroundings [] 2 "" := by
  have documented : shelfLibraries.Documented := by
    refine ⟨ConfigurationReader.documented_toml, fun source => ?_⟩
    by_cases known : source.text = abstractPage.info.text <;> simp [shelfLibraries, known]
  have ends := run_ends_iff shelfLibraries documented shelfSurroundings
  refine ⟨documented, ?_, ?_, ?_, ?_, ?_⟩
  · exact (ends _ (by decide +kernel) 0 _).mp (by decide +kernel)
  · exact (ends _ (by decide +kernel) 0 _).mp (by decide +kernel)
  · exact (ends _ (by decide +kernel) 1 _).mp (by decide +kernel)
  · exact (ends _ (by decide +kernel) 1 _).mp (by decide +kernel)
  · exact (ends _ (by decide +kernel) 2 _).mp (by decide +kernel)

end ClassAtlas.Command
