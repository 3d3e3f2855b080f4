import ClassAtlas.Command.Arguments

/-!
# Arguments are read as they are written

Every invocation can be written as arguments that are read as this invocation again. Options are
written with their values behind an equals sign, where a value may begin with any byte, and the path
after two dashes, so that it is not taken for an option whatever its bytes are.
-/
namespace ClassAtlas.Command

/-! ### Options and flags -/

/-- An option or a flag by its name, perhaps with a value. -/
def longArgument (name : String) (value? : Option SystemText) : SystemText :=
  ⟨dash :: dash :: ((SystemText.ofText name).bytes ++
    (value?.map fun value => equalsSign :: value.bytes).getD [])⟩

theorem splitValue_of_not_mem {name : List UInt8} (plain : equalsSign ∉ name)
    (value? : Option SystemText) :
    splitValue (name ++ (value?.map fun value => equalsSign :: value.bytes).getD []) =
      (⟨name⟩, value?) := by
  have before : ∀ b ∈ name, (b != equalsSign) = true := fun b member =>
    bne_iff_ne.mpr fun same => plain (same ▸ member)
  rw [splitValue, List.takeWhile_append_of_pos before, List.dropWhile_append_of_pos before]
  cases value? <;> simp

/-- A long argument is what its name says. -/
theorem ofWritten_longArgument {name : String} (visible : (SystemText.ofText name).bytes ≠ [])
    (plain : equalsSign ∉ (SystemText.ofText name).bytes) (value? : Option SystemText) :
    Argument.ofWritten (longArgument name value?) =
      Argument.ofName (longArgument name value?) (.ofText name) value? := by
  have more : (longArgument name value?).bytes ≠ [dash, dash] := by
    simpa [longArgument] using fun nothing => absurd nothing visible
  have long : [dash, dash].isPrefixOf (longArgument name value?).bytes = true := by
    simp [longArgument, List.isPrefixOf]
  rw [Argument.ofWritten, if_neg more, if_pos long]
  simp only [longArgument, List.drop_succ_cons, List.drop_zero, splitValue_of_not_mem plain]

theorem ofWritten_choice (choice : Choice) (value : SystemText) :
    Argument.ofWritten (longArgument choice.name (some value)) = .choice choice (some value) := by
  have known : Choice.ofName? choice.name = some choice := by cases choice <;> decide +kernel
  rw [ofWritten_longArgument (by cases choice <;> decide +kernel)
    (by cases choice <;> decide +kernel)]
  simp [Argument.ofName, known]

theorem ofWritten_flag (flag : Flag) :
    Argument.ofWritten (longArgument flag.name none) = .flag flag := by
  have known : Flag.ofName? flag.name = some flag := by cases flag <;> decide +kernel
  have other : Choice.ofName? flag.name = none := by cases flag <;> decide +kernel
  rw [ofWritten_longArgument (by cases flag <;> decide +kernel) (by cases flag <;> decide +kernel)]
  simp [Argument.ofName, known, other]

/-! ### Invocations -/

namespace Invocation

/-- Arguments for an invocation. -/
def written (i : Invocation) : List SystemText :=
  i.config?.toList.map (fun path => longArgument Choice.config.name (some path)) ++
    i.profile?.toList.map
      (fun profile => longArgument Choice.profile.name (some (.ofText profile.name))) ++
    (if i.pretty then [longArgument Flag.pretty.name none] else []) ++
    (if i.verbose then [longArgument Flag.verbose.name none] else []) ++
    match i.path? with
    | none => []
    | some path => [⟨[dash, dash]⟩, path]

variable {path? config? : Option SystemText} {profile? : Option Profile} {pretty verbose : Bool}
  {rest : List SystemText}

theorem withArguments_config (visible : ∀ path ∈ config?, path.bytes ≠ []) :
    withArguments ⟨path?, none, profile?, pretty, verbose⟩
        (config?.toList.map (fun path => longArgument Choice.config.name (some path)) ++ rest) =
      withArguments ⟨path?, config?, profile?, pretty, verbose⟩ rest := by
  cases config? with
  | none => rfl
  | some path =>
    have filled : path.bytes ≠ [] := visible path rfl
    simp [withArguments, ofWritten_choice, withValue, filled, Except.bind]

theorem withArguments_profile :
    withArguments ⟨path?, config?, none, pretty, verbose⟩
        (profile?.toList.map (fun profile =>
          longArgument Choice.profile.name (some (.ofText profile.name))) ++ rest) =
      withArguments ⟨path?, config?, profile?, pretty, verbose⟩ rest := by
  cases profile? with
  | none => rfl
  | some profile =>
    have known : Profile.ofWord? profile.name = some profile := by cases profile <;> decide +kernel
    simp [withArguments, ofWritten_choice, withValue, known, Except.bind]

theorem withArguments_pretty :
    withArguments ⟨path?, config?, profile?, false, verbose⟩
        ((if pretty then [longArgument Flag.pretty.name none] else []) ++ rest) =
      withArguments ⟨path?, config?, profile?, pretty, verbose⟩ rest := by
  cases pretty <;> simp [withArguments, ofWritten_flag, withFlag, Except.bind]

theorem withArguments_verbose :
    withArguments ⟨path?, config?, profile?, pretty, false⟩
        ((if verbose then [longArgument Flag.verbose.name none] else []) ++ rest) =
      withArguments ⟨path?, config?, profile?, pretty, verbose⟩ rest := by
  cases verbose <;> simp [withArguments, ofWritten_flag, withFlag, Except.bind]

theorem withArguments_path {path : SystemText} (visible : path.bytes ≠ []) :
    withArguments ⟨none, config?, profile?, pretty, verbose⟩ [⟨[dash, dash]⟩, path] =
      .ok ⟨some path, config?, profile?, pretty, verbose⟩ := by
  simp [withArguments, Argument.ofWritten, withPaths, withPath, visible, Except.bind]

/-- What has been written is read back, as long as no path is empty. -/
theorem ofArguments_written (i : Invocation) (config : ∀ path ∈ i.config?, path.bytes ≠ [])
    (source : ∀ path ∈ i.path?, path.bytes ≠ []) : ofArguments i.written = .ok i := by
  obtain ⟨path?, config?, profile?, pretty, verbose⟩ := i
  -- The arguments are taken from the front, each setting one part of the invocation.
  rw [ofArguments, plain, written, List.append_assoc, List.append_assoc, List.append_assoc,
    withArguments_config config, withArguments_profile, withArguments_pretty,
    withArguments_verbose]
  cases path? with
  | none => rfl
  | some path => exact withArguments_path (source path rfl)

end Invocation

end ClassAtlas.Command
