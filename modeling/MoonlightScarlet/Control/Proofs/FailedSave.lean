import MoonlightScarlet.Control.Proofs.Hosts
/-!
# What a failed save leaves

The file is replaced in place: a save that stops inside the document leaves a file that
no load accepts, and the next `remember_connected_host` loads before it saves.
-/

namespace MoonlightScarlet.Control

open Support.Files

section Hosts

variable {lib : UrlLibrary} {json : Json SavedHostsDocument} {loading saving io : Io}
  {directory : Directory}

theorem loadFrom_cut (hjson : json.Faithful) {saved : SavedHosts} {bytes : Bytes}
    (hbytes : json.toVecPretty saved.document = .ok bytes)
    (hpoint : io.savePoint hostsFile bytes.length = .cut) :
    ∃ error, ∀ loading : Io, loading.Reads →
      SavedHosts.loadFrom lib json loading (saved.saveTo json io directory).2 =
        .error (.configuration error) := by
  obtain ⟨error, herror⟩ := @loadDocument_cut _ json io directory hostsFile _ bytes hjson hbytes
    hpoint
  exact ⟨error, fun loading hreads => loadFrom_error (herror loading hreads)⟩

/-- `remember_connected_host` fails as the load does. -/
theorem rememberConnectedHost_error {error : ControlError}
    (hload : SavedHosts.loadFrom lib json loading directory = .error error) (host : String) :
    rememberConnectedHost lib json loading saving directory host = (.error error, directory) := by
  rw [rememberConnectedHost, hload]

/-- After a load, every accepted host can be recorded. -/
theorem rememberConnectedHost_records (hjson : json.Faithful) {saved : SavedHosts}
    (hload : SavedHosts.loadFrom lib json Io.working directory = .ok saved) {host : String}
    (haccepted : AcceptedHost lib (trim host)) :
    let recorded := rememberConnectedHost lib json Io.working Io.working directory host
    recorded.1 = .ok () ∧
      SavedHosts.loadFrom lib json Io.working recorded.2 =
        .ok { saved.insert (trim host) with lastConnected := some (trim host) } := by
  have hnormalized : normalizedHost lib host = .ok (trim host) :=
    normalizedHost_eq_ok.mpr ⟨rfl, haccepted⟩
  have hvalid := (loadFrom_valid hload).select haccepted
  have hrecorded : rememberConnectedHost lib json Io.working Io.working directory host =
      SavedHosts.saveTo json Io.working directory
        { saved.insert (trim host) with lastConnected := some (trim host) } := by
    rw [rememberConnectedHost, hload]
    dsimp only
    rw [remember_run, hnormalized]
  dsimp only
  rw [hrecorded]
  refine ⟨?_, load_after_save hjson hvalid directory⟩
  obtain ⟨bytes, hbytes⟩ := hjson.text
    (SavedHosts.document { saved.insert (trim host) with lastConnected := some (trim host) })
  rw [SavedHosts.saveTo, saveDocument_eq hbytes rfl]
  rfl

/-- What a failed save of the history leaves for the loads behind it. -/
theorem saved_hosts_after_failure (hjson : json.Faithful) {old new : SavedHosts}
    (hold : SavedHosts.loadFrom lib json Io.working directory = .ok old) (hnew : new.Valid lib)
    {bytes : Bytes} (hbytes : json.toVecPretty new.document = .ok bytes) :
    let after := (new.saveTo json io directory).2
    match io.savePoint hostsFile bytes.length with
    | .untouched =>
        after = directory ∧ SavedHosts.loadFrom lib json Io.working after = .ok old
    | .whole => SavedHosts.loadFrom lib json Io.working after = .ok new
    | .cut => ∃ error,
        SavedHosts.loadFrom lib json Io.working after = .error (.configuration error) ∧
          ∀ loading saving : Io, loading.Reads → ∀ host,
            rememberConnectedHost lib json loading saving after host =
              (.error (.configuration error), after) := by
  dsimp only
  cases hpoint : io.savePoint hostsFile bytes.length with
  | untouched =>
      have hsame : (new.saveTo json io directory).2 = directory :=
        (saveDocument_untouched hbytes hpoint).1
      dsimp only
      rw [hsame]
      exact ⟨rfl, hold⟩
  | whole => exact loadFrom_whole hjson hnew hbytes hpoint working_reads
  | cut =>
      obtain ⟨error, herror⟩ :=
        @loadFrom_cut lib json io directory hjson new bytes hbytes hpoint
      exact ⟨error, herror Io.working working_reads, fun loading saving hreads host =>
        rememberConnectedHost_error (herror loading hreads) host⟩

end Hosts

section Settings

variable {json : Json ClientSettings} {io : Io} {directory : Directory}

theorem saveTo_invalid {settings : ClientSettings} {error : ControlError}
    (hinvalid : settings.validate = .error error) :
    settings.saveTo json io directory = (.error error, directory) := by
  rw [ClientSettings.saveTo, hinvalid]

theorem saveTo_valid {settings : ClientSettings} (hvalid : settings.validate = .ok ()) :
    settings.saveTo json io directory = saveDocument json io directory settingsFile settings := by
  rw [ClientSettings.saveTo, hvalid]

/-- What a failed save of preferences leaves; invalid ones are not written at all. -/
theorem settings_after_failure (hjson : json.Faithful) {old new : ClientSettings}
    (hold : ClientSettings.loadFrom json Io.working directory = .ok old) {bytes : Bytes}
    (hbytes : json.toVecPretty new = .ok bytes) :
    let after := (new.saveTo json io directory).2
    match new.validate, io.savePoint settingsFile bytes.length with
    | .error _, _ | .ok _, .untouched =>
        after = directory ∧ ClientSettings.loadFrom json Io.working after = .ok old
    | .ok _, .whole => ClientSettings.loadFrom json Io.working after = .ok new
    | .ok _, .cut => ∃ error,
        ClientSettings.loadFrom json Io.working after = .error (.configuration error) := by
  dsimp only
  cases hvalid : new.validate with
  | error error =>
      dsimp only
      rw [saveTo_invalid hvalid]
      exact ⟨rfl, hold⟩
  | ok _ =>
      rw [saveTo_valid hvalid]
      cases hpoint : io.savePoint settingsFile bytes.length with
      | untouched =>
          dsimp only
          rw [(saveDocument_untouched hbytes hpoint).1]
          exact ⟨rfl, hold⟩
      | whole =>
          dsimp only
          rw [ClientSettings.loadFrom, loadDocument_whole hjson hbytes hpoint working_reads]
          show (do new.validate; return new) = _
          rw [hvalid]
          rfl
      | cut =>
          obtain ⟨error, herror⟩ :=
            @loadDocument_cut _ json io directory settingsFile new bytes hjson hbytes hpoint
          refine ⟨error, ?_⟩
          rw [ClientSettings.loadFrom, herror Io.working working_reads]
          rfl

end Settings

/-- `remember_connected_host` records every accepted host behind `saved`. -/
def Records (lib : UrlLibrary) (json : Json SavedHostsDocument) (directory : Directory)
    (saved : SavedHosts) : Prop :=
  ∀ host, AcceptedHost lib (trim host) →
    let recorded := rememberConnectedHost lib json Io.working Io.working directory host
    recorded.1 = .ok () ∧
      SavedHosts.loadFrom lib json Io.working recorded.2 =
        .ok { saved.insert (trim host) with lastConnected := some (trim host) }

/-- A save that stops before it truncates the file keeps the old value, and one that stops
behind the document has the new one.  One that stops between the two leaves a file that
every load and every `remember_connected_host` rejects with a configuration error. -/
theorem failed_save (lib : UrlLibrary) (hostsJson : Json SavedHostsDocument)
    (settingsJson : Json ClientSettings) (hhosts : hostsJson.Faithful)
    (hsettings : settingsJson.Faithful) (directory : Directory) (io : Io) :
    (∀ old new bytes, SavedHosts.loadFrom lib hostsJson Io.working directory = .ok old →
      new.Valid lib → hostsJson.toVecPretty new.document = .ok bytes →
      let after := (new.saveTo hostsJson io directory).2
      match io.savePoint hostsFile bytes.length with
      | .untouched =>
          after = directory ∧ SavedHosts.loadFrom lib hostsJson Io.working after = .ok old ∧
            Records lib hostsJson after old
      | .whole =>
          SavedHosts.loadFrom lib hostsJson Io.working after = .ok new ∧
            Records lib hostsJson after new
      | .cut => ∃ error,
          SavedHosts.loadFrom lib hostsJson Io.working after = .error (.configuration error) ∧
            ∀ loading saving : Io, loading.Reads → ∀ host,
              rememberConnectedHost lib hostsJson loading saving after host =
                (.error (.configuration error), after)) ∧
    ∀ old new bytes, ClientSettings.loadFrom settingsJson Io.working directory = .ok old →
      settingsJson.toVecPretty new = .ok bytes →
      let after := (new.saveTo settingsJson io directory).2
      match new.validate, io.savePoint settingsFile bytes.length with
      | .error _, _ | .ok _, .untouched =>
          after = directory ∧ ClientSettings.loadFrom settingsJson Io.working after = .ok old
      | .ok _, .whole => ClientSettings.loadFrom settingsJson Io.working after = .ok new
      | .ok _, .cut => ∃ error,
          ClientSettings.loadFrom settingsJson Io.working after =
            .error (.configuration error) := by
  constructor
  · intro old new bytes hold hnew hbytes
    have hafter := @saved_hosts_after_failure lib hostsJson io directory hhosts old new hold hnew
      bytes hbytes
    dsimp only at hafter ⊢
    cases hpoint : io.savePoint hostsFile bytes.length with
    | untouched =>
        simp only [hpoint] at hafter
        exact ⟨hafter.1, hafter.2, fun host => rememberConnectedHost_records hhosts hafter.2⟩
    | whole =>
        simp only [hpoint] at hafter
        exact ⟨hafter, fun host => rememberConnectedHost_records hhosts hafter⟩
    | cut =>
        simp only [hpoint] at hafter
        exact hafter
  · intro old new bytes hold hbytes
    exact settings_after_failure hsettings hold hbytes

/-- A full disk when the second host is saved. -/
def fullDisk : Io :=
  { write := fun _ => .failed "No space left on device (os error 28)" (some 0) }

theorem failed_save_full :
    let json := PlainJson.json PlainJson.hostsSamples
    let directory := (PlainJson.oneHost.saveTo json Io.working fun _ => none).2
    ∃ error, SavedHosts.loadFrom PlainUrl.library json Io.working
      (PlainJson.twoHosts.saveTo json fullDisk directory).2 = .error (.configuration error) := by
  have hload : SavedHosts.loadFrom PlainUrl.library (PlainJson.json PlainJson.hostsSamples)
      Io.working (PlainJson.oneHost.saveTo (PlainJson.json PlainJson.hostsSamples) Io.working
        fun _ => none).2 = .ok PlainJson.oneHost := by decide +kernel
  have hvalid : PlainJson.twoHosts.Valid PlainUrl.library :=
    loadFrom_valid (show SavedHosts.loadFrom PlainUrl.library
      (PlainJson.json PlainJson.hostsSamples) Io.working
      (PlainJson.twoHosts.saveTo (PlainJson.json PlainJson.hostsSamples) Io.working
        fun _ => none).2 = .ok PlainJson.twoHosts by decide +kernel)
  obtain ⟨error, herror, -⟩ := (failed_save PlainUrl.library (PlainJson.json PlainJson.hostsSamples)
    (PlainJson.json PlainJson.settingsSamples)
    (PlainJson.json_faithful PlainJson.hostsSamples_samples)
    (PlainJson.json_faithful PlainJson.settingsSamples_samples) _ fullDisk).1 PlainJson.oneHost
    PlainJson.twoHosts _ hload hvalid rfl
  exact ⟨error, herror⟩

/-- The histories before and after are lost, and so are the preferences. -/
theorem failed_save_loses_both :
    let hosts := PlainJson.json PlainJson.hostsSamples
    let settings := PlainJson.json PlainJson.settingsSamples
    let saved := (PlainJson.oneHost.saveTo hosts Io.working fun _ => none).2
    let after := PlainJson.twoHosts.saveTo hosts fullDisk saved
    let savedSettings := (({} : ClientSettings).saveTo settings Io.working fun _ => none).2
    let afterSettings := PlainJson.fastSettings.saveTo settings fullDisk savedSettings
    SavedHosts.loadFrom PlainUrl.library hosts Io.working saved = .ok PlainJson.oneHost ∧
      after.1 = .error (.io "No space left on device (os error 28)") ∧
      SavedHosts.loadFrom PlainUrl.library hosts Io.working after.2 =
        .error (.configuration "EOF while parsing a value at line 1 column 0") ∧
      (rememberConnectedHost PlainUrl.library hosts Io.working Io.working after.2 "10.0.0.2").1 =
        .error (.configuration "EOF while parsing a value at line 1 column 0") ∧
      ClientSettings.loadFrom settings Io.working savedSettings = .ok {} ∧
      ClientSettings.loadFrom settings Io.working afterSettings.2 =
        .error (.configuration "EOF while parsing a value at line 1 column 0") := by
  decide +kernel

end MoonlightScarlet.Control
