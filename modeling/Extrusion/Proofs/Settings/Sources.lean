import Extrusion.CommandLine

/-!
# Settings from several sources

Of the sources of a setting, the last one that sets it decides: the defaults, the
user's file, the file that the command line names, and the flags, in this order.
Only a broken file that the command line names, and settings that are refused once
all sources are combined, keep a configuration from being made.
-/

namespace Extrusion

def IsLastSet {β : Type} (value : β) (sources : List (Option β)) : Prop :=
  ∃ before later, sources = before ++ some value :: later ∧ ∀ source ∈ later, source = none

/-- Settings take each value from the last of some sources that sets it. -/
structure BuildSettings.Combines (settings : BuildSettings Float)
    (sources : List SettingsFile) : Prop where
  nozzleDiameter : IsLastSet settings.nozzleDiameter (sources.map (·.nozzleDiameter))
  arcMaxError : IsLastSet settings.arcMaxError (sources.map (·.arcMaxError))
  skipUnknown : IsLastSet settings.skipUnknown (sources.map (·.skipUnknown))

def BuildSettings.toFile (settings : BuildSettings Float) : SettingsFile :=
  ⟨some settings.nozzleDiameter, some settings.arcMaxError, some settings.skipUnknown⟩

/-- What a file sets.  An absent or a broken one sets nothing. -/
def SettingsFile.ofResult : Option (Except FileFault SettingsFile) → SettingsFile
  | some (.ok file) => file
  | _ => .empty

def Options.toFile (options : Options) : SettingsFile :=
  ⟨options.nozzleDiameter, options.arcMaxError, if options.strict then some false else none⟩

namespace Config

/-- The sources of the settings, the one that counts least first. -/
def sources (user named : Option (Except FileFault SettingsFile)) (options : Options) :
    List SettingsFile :=
  [BuildSettings.default.toFile, .ofResult user, .ofResult named, options.toFile]

def combined (user named : Option (Except FileFault SettingsFile)) (options : Options) :
    BuildSettings Float :=
  [.ofResult user, .ofResult named, options.toFile].foldl BuildSettings.apply .default

end Config

/-!
# The last source
-/

section

variable {β : Type} {value other : β} {sources : List (Option β)}

theorem isLastSet_concat (sources : List (Option β)) (value : β) :
    IsLastSet value (sources ++ [some value]) :=
  ⟨sources, [], rfl, fun _ h => absurd h List.not_mem_nil⟩

theorem IsLastSet.overlay (h : IsLastSet value sources) (source : Option β) :
    IsLastSet (source.getD value) (sources ++ [source]) := by
  cases source with
  | some new => exact isLastSet_concat sources new
  | none =>
      obtain ⟨before, later, rfl, hlater⟩ := h
      refine ⟨before, later ++ [none], List.append_assoc _ _ _, ?_⟩
      intro source hmem
      rcases List.mem_append.mp hmem with hold | hnew
      · exact hlater source hold
      · exact List.mem_singleton.mp hnew

theorem isLastSet_iff_findSome :
    IsLastSet value sources ↔ sources.reverse.findSome? id = some value := by
  rw [List.findSome?_eq_some_iff]
  constructor
  · rintro ⟨before, later, rfl, hlater⟩
    refine ⟨later.reverse, some value, before.reverse, ?_, rfl, ?_⟩
    · simp
    · intro source hmem
      exact hlater source (List.mem_reverse.mp hmem)
  · rintro ⟨later, source, before, hsources, hsource, hlater⟩
    refine ⟨before.reverse, later.reverse, ?_, ?_⟩
    · rw [← List.reverse_reverse sources, hsources, show source = some value from hsource]
      simp
    · intro source hmem
      exact hlater source (List.mem_reverse.mp hmem)

theorem IsLastSet.unique (h : IsLastSet value sources) (h' : IsLastSet other sources) :
    value = other := by
  rw [isLastSet_iff_findSome] at h h'
  rw [h] at h'
  exact Option.some.inj h'

end

namespace BuildSettings

variable {settings others : BuildSettings Float} {sources : List SettingsFile}

theorem combines_toFile (settings : BuildSettings Float) : settings.Combines [settings.toFile] where
  nozzleDiameter := isLastSet_concat [] _
  arcMaxError := isLastSet_concat [] _
  skipUnknown := isLastSet_concat [] _

theorem Combines.unique (h : settings.Combines sources) (h' : others.Combines sources) :
    settings = others := by
  rcases settings with ⟨nozzleDiameter, arcMaxError, skipUnknown⟩
  rcases others with ⟨nozzleDiameter', arcMaxError', skipUnknown'⟩
  rw [show nozzleDiameter = nozzleDiameter' from h.nozzleDiameter.unique h'.nozzleDiameter,
    show arcMaxError = arcMaxError' from h.arcMaxError.unique h'.arcMaxError,
    show skipUnknown = skipUnknown' from h.skipUnknown.unique h'.skipUnknown]

theorem Combines.apply (h : settings.Combines sources) (file : SettingsFile) :
    (settings.apply file).Combines (sources ++ [file]) where
  nozzleDiameter := by
    rw [List.map_append]
    exact h.nozzleDiameter.overlay file.nozzleDiameter
  arcMaxError := by
    rw [List.map_append]
    exact h.arcMaxError.overlay file.arcMaxError
  skipUnknown := by
    rw [List.map_append]
    exact h.skipUnknown.overlay file.skipUnknown

theorem Combines.applyAll (h : settings.Combines sources) (files : List SettingsFile) :
    (files.foldl BuildSettings.apply settings).Combines (sources ++ files) := by
  induction files generalizing settings sources with
  | nil =>
      rw [List.append_nil]
      exact h
  | cons file rest ih =>
      have hrest := ih (h.apply file)
      rw [List.append_assoc] at hrest
      exact hrest

end BuildSettings

/-!
# Configurations
-/

namespace Config

variable {user named : Option (Except FileFault SettingsFile)} {arguments : Arguments}

theorem combines_combined (user named : Option (Except FileFault SettingsFile))
    (options : Options) : (combined user named options).Combines (sources user named options) :=
  (BuildSettings.combines_toFile .default).applyAll _

theorem ofSources_of_broken {fault : FileFault} :
    ofSources user (some (.error fault)) arguments = .error (.file fault) := by
  rcases user with _ | _ | _ <;> rfl

theorem ofSources_of_usable (h : ∀ fault, named ≠ some (.error fault)) :
    ofSources user named arguments =
      match (combined user named arguments.options).validate with
      | .error error => .error (.settings error)
      | .ok () => .ok
          { path := arguments.path
            settings := combined user named arguments.options
            json := arguments.options.json
            logLevel := arguments.options.logLevel.getD "info" } := by
  have hsettings : settingsFrom user named arguments.options =
      ((combined user named arguments.options).validate.mapError ConfigError.settings >>= fun _ =>
        .ok (combined user named arguments.options)) := by
    rcases named with _ | fault | file
    · rcases user with _ | _ | _ <;> rfl
    · exact absurd rfl (h fault)
    · rcases user with _ | _ | _ <;> rfl
  unfold ofSources
  rw [hsettings]
  cases (combined user named arguments.options).validate <;> rfl

theorem ofSources_eq_ok_iff {config : Config} :
    ofSources user named arguments = .ok config ↔
      (∀ fault, named ≠ some (.error fault)) ∧
        config.settings.Combines (sources user named arguments.options) ∧
        config.settings.validate = .ok () ∧ config.path = arguments.path ∧
        config.json = arguments.options.json ∧
        config.logLevel = arguments.options.logLevel.getD "info" := by
  have hcombined := combines_combined user named arguments.options
  constructor
  · intro h
    have husable : ∀ fault, named ≠ some (.error fault) := by
      rintro fault rfl
      rw [ofSources_of_broken] at h
      cases h
    rw [ofSources_of_usable husable] at h
    cases hvalidate : (combined user named arguments.options).validate with
    | error error =>
        rw [hvalidate] at h
        cases h
    | ok valid =>
        rw [hvalidate] at h
        cases h
        exact ⟨husable, hcombined, hvalidate, rfl, rfl, rfl⟩
  · rintro ⟨husable, hcombines, hvalidate, hpath, hjson, hlevel⟩
    rcases config with ⟨path, settings, json, logLevel⟩
    dsimp only at hcombines hvalidate hpath hjson hlevel
    subst hpath hjson hlevel
    rw [ofSources_of_usable husable, hcombined.unique hcombines, hvalidate]

theorem ofSources_eq_error_iff {error : ConfigError} :
    ofSources user named arguments = .error error ↔
      (∃ fault, named = some (.error fault) ∧ error = .file fault) ∨
        (∀ fault, named ≠ some (.error fault)) ∧
          ∃ (settings : BuildSettings Float) (cause : SettingsError Float),
            settings.Combines (sources user named arguments.options) ∧
              settings.validate = .error cause ∧ error = .settings cause := by
  have hcombined := combines_combined user named arguments.options
  by_cases hbroken : ∃ fault, named = some (.error fault)
  · obtain ⟨fault, rfl⟩ := hbroken
    rw [ofSources_of_broken]
    constructor
    · intro h
      cases h
      exact Or.inl ⟨fault, rfl, rfl⟩
    · rintro (⟨other, hfault, rfl⟩ | ⟨husable, _⟩)
      · cases hfault
        rfl
      · exact absurd rfl (husable fault)
  · have husable : ∀ fault, named ≠ some (.error fault) :=
      fun fault hfault => hbroken ⟨fault, hfault⟩
    rw [ofSources_of_usable husable]
    constructor
    · intro h
      cases hvalidate : (combined user named arguments.options).validate with
      | error cause =>
          rw [hvalidate] at h
          cases h
          exact Or.inr ⟨husable, _, cause, hcombined, hvalidate, rfl⟩
      | ok valid =>
          rw [hvalidate] at h
          cases h
    · rintro (⟨fault, hfault, _⟩ | ⟨_, settings, cause, hcombines, hvalidate, rfl⟩)
      · exact absurd hfault (husable fault)
      · rw [hcombined.unique hcombines, hvalidate]

structure SourcesRule (user named : Option (Except FileFault SettingsFile))
    (arguments : Arguments) : Prop where
  fails_iff : (∃ error, ofSources user named arguments = .error error) ↔
    (∃ fault, named = some (.error fault)) ∨
      ∃ (settings : BuildSettings Float) (cause : SettingsError Float),
        settings.Combines (sources user named arguments.options) ∧
          settings.validate = .error cause
  failure : ∀ error, ofSources user named arguments = .error error ↔
    (∃ fault, named = some (.error fault) ∧ error = .file fault) ∨
      (∀ fault, named ≠ some (.error fault)) ∧
        ∃ (settings : BuildSettings Float) (cause : SettingsError Float),
          settings.Combines (sources user named arguments.options) ∧
            settings.validate = .error cause ∧ error = .settings cause
  made : ∀ config, ofSources user named arguments = .ok config ↔
    (∀ fault, named ≠ some (.error fault)) ∧
      config.settings.Combines (sources user named arguments.options) ∧
      config.settings.validate = .ok () ∧ config.path = arguments.path ∧
      config.json = arguments.options.json ∧
      config.logLevel = arguments.options.logLevel.getD "info"
  unique : ∀ first second : BuildSettings Float,
    first.Combines (sources user named arguments.options) →
      second.Combines (sources user named arguments.options) → first = second
  ignored : ∀ fault, user = some (.error fault) →
    ofSources user named arguments = ofSources none named arguments
  strict : arguments.options.strict = true → ∀ config,
    ofSources user named arguments = .ok config → config.settings.skipUnknown = false

theorem sourcesRule (user named : Option (Except FileFault SettingsFile))
    (arguments : Arguments) : SourcesRule user named arguments where
  fails_iff := by
    constructor
    · rintro ⟨error, herror⟩
      rcases ofSources_eq_error_iff.mp herror with
        ⟨fault, hfault, _⟩ | ⟨_, settings, cause, hcombines, hvalidate, _⟩
      · exact Or.inl ⟨fault, hfault⟩
      · exact Or.inr ⟨settings, cause, hcombines, hvalidate⟩
    · intro h
      by_cases hbroken : ∃ fault, named = some (.error fault)
      · obtain ⟨fault, hfault⟩ := hbroken
        exact ⟨_, ofSources_eq_error_iff.mpr (Or.inl ⟨fault, hfault, rfl⟩)⟩
      · obtain ⟨settings, cause, hcombines, hvalidate⟩ := h.resolve_left hbroken
        refine ⟨_, ofSources_eq_error_iff.mpr (Or.inr ⟨?_, settings, cause, hcombines,
          hvalidate, rfl⟩)⟩
        exact fun fault hfault => hbroken ⟨fault, hfault⟩
  failure error := ofSources_eq_error_iff
  made config := ofSources_eq_ok_iff
  unique first second hfirst hsecond := hfirst.unique hsecond
  ignored := by
    rintro fault rfl
    rcases named with _ | _ | _ <;> rfl
  strict := by
    intro hstrict config hconfig
    have hlast := (ofSources_eq_ok_iff.mp hconfig).2.1.skipUnknown
    have hflags : arguments.options.toFile.skipUnknown = some false := by
      unfold Options.toFile
      rw [hstrict, if_pos rfl]
    unfold sources at hlast
    simp only [List.map_cons, List.map_nil, hflags] at hlast
    exact hlast.unique (isLastSet_concat [_, _, _] false)

end Config
end Extrusion
