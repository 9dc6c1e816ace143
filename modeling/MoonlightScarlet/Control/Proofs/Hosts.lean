import MoonlightScarlet.Control.Proofs.PlainJson
import MoonlightScarlet.Control.Proofs.PlainUrl
import MoonlightScarlet.Control.Proofs.Storage
import MoonlightScarlet.Control.Proofs.Text
import MoonlightScarlet.Support.Fallible
import Mathlib.Data.List.Nodup
/-!
# Saved hosts

`Valid` is what every history satisfies that was built by `remember`: its hosts are
distinct, trimmed and accepted, and the last one is among them.  A valid history is
rebuilt by the two insertion routines of `load_from` exactly as it was.
-/

namespace MoonlightScarlet.Control

open Support.Files Support.Fallible

/-! ## Valid histories -/

section Valid

variable (lib : UrlLibrary)

/-- Trimmed, and accepted by `Endpoint::parse`. -/
def AcceptedHost (host : String) : Prop :=
  trim host = host ∧ ∃ endpoint, Endpoint.parse lib host = .ok endpoint

structure SavedHosts.Valid (saved : SavedHosts) : Prop where
  distinct : saved.hosts.Nodup
  accepted : ∀ host ∈ saved.hosts, AcceptedHost lib host
  last : ∀ host, saved.lastConnected = some host → host ∈ saved.hosts

variable {lib}

theorem normalizedHost_eq_ok {host normalized : String} :
    normalizedHost lib host = .ok normalized ↔
      normalized = trim host ∧ AcceptedHost lib (trim host) := by
  have hbind : normalizedHost lib host =
      Endpoint.parse lib (trim host) >>= fun _ => .ok (trim host) := rfl
  rw [hbind, bind_eq_ok]
  constructor
  · rintro ⟨endpoint, hparse, hok⟩
    exact ⟨(Except.ok.inj hok).symm, trim_trim host, endpoint, hparse⟩
  · rintro ⟨rfl, -, endpoint, hparse⟩
    exact ⟨endpoint, hparse, rfl⟩

theorem normalizedHost_of_accepted {host : String} (h : AcceptedHost lib host) :
    normalizedHost lib host = .ok host :=
  normalizedHost_eq_ok.mpr ⟨h.1.symm, h.1.symm ▸ h⟩

/-- Insert a host behind the others unless it is there. -/
def SavedHosts.insert (saved : SavedHosts) (host : String) : SavedHosts :=
  if host ∈ saved.hosts then saved else { saved with hosts := saved.hosts ++ [host] }

theorem rememberWithoutSelecting_run (saved : SavedHosts) (host : String) :
    (SavedHosts.rememberWithoutSelecting lib host).run saved =
      match normalizedHost lib host with
      | .ok host => .ok () (saved.insert host)
      | .error error => .error error saved := by
  unfold SavedHosts.rememberWithoutSelecting
  rw [run_ofExcept_bind]
  cases normalizedHost lib host with
  | error error => rfl
  | ok host =>
      dsimp only
      rw [EStateM.run_bind, EStateM.run_get, SavedHosts.insert]
      dsimp only
      split_ifs <;> rfl

/-- A rejected host leaves the whole history as it was; the second normalization of an
accepted one changes nothing. -/
theorem remember_run (saved : SavedHosts) (host : String) :
    (SavedHosts.remember lib host).run saved =
      match normalizedHost lib host with
      | .ok host => .ok () { saved.insert host with lastConnected := some host }
      | .error error => .error error saved := by
  unfold SavedHosts.remember
  rw [run_ofExcept_bind]
  cases hnormalized : normalizedHost lib host with
  | error error => rfl
  | ok normalized =>
      obtain ⟨rfl, haccepted⟩ := normalizedHost_eq_ok.mp hnormalized
      dsimp only
      rw [EStateM.run_bind, rememberWithoutSelecting_run, normalizedHost_of_accepted haccepted]
      rfl

theorem remember_error {saved left : SavedHosts} {host : String} {error : ControlError}
    (h : (SavedHosts.remember lib host).run saved = .error error left) : left = saved := by
  rw [remember_run] at h
  revert h
  cases normalizedHost lib host with
  | error error' => exact fun h => (EStateM.Result.error.inj h).2.symm
  | ok normalized => exact fun h => by injection h

theorem remember_ok {saved next : SavedHosts} {host : String}
    (h : (SavedHosts.remember lib host).run saved = .ok () next) :
    ∃ normalized, normalized = trim host ∧
      next = { saved.insert normalized with lastConnected := some normalized } := by
  rw [remember_run] at h
  cases hnormalized : normalizedHost lib host with
  | error error =>
      simp only [hnormalized, reduceCtorEq] at h
  | ok normalized =>
      simp only [hnormalized, EStateM.Result.ok.injEq, true_and] at h
      exact ⟨normalized, (normalizedHost_eq_ok.mp hnormalized).1, h.symm⟩

theorem mem_insert {saved : SavedHosts} {host other : String} :
    other ∈ (saved.insert host).hosts ↔ other ∈ saved.hosts ∨ other = host := by
  unfold SavedHosts.insert
  split_ifs with hmem
  · exact ⟨Or.inl, fun h => h.elim id fun heq => heq ▸ hmem⟩
  · simp

theorem hosts_insert (saved : SavedHosts) (host : String) :
    (saved.insert host).hosts =
      if host ∈ saved.hosts then saved.hosts else saved.hosts ++ [host] := by
  unfold SavedHosts.insert
  split_ifs <;> rfl

theorem insert_prefix (saved : SavedHosts) (host : String) :
    saved.hosts <+: (saved.insert host).hosts := by
  unfold SavedHosts.insert
  split_ifs
  · exact List.prefix_refl _
  · exact List.prefix_append ..

theorem nodup_insert {saved : SavedHosts} (h : saved.hosts.Nodup) (host : String) :
    (saved.insert host).hosts.Nodup := by
  unfold SavedHosts.insert
  split_ifs with hmem
  · exact h
  · exact List.nodup_append.mpr ⟨h, List.nodup_singleton host, fun a ha b hb heq =>
      hmem (by rwa [← List.mem_singleton.mp hb, ← heq])⟩

theorem lastConnected_insert (saved : SavedHosts) (host : String) :
    (saved.insert host).lastConnected = saved.lastConnected := by
  unfold SavedHosts.insert
  split_ifs <;> rfl

theorem SavedHosts.Valid.insert {saved : SavedHosts} (h : saved.Valid lib) {host : String}
    (haccepted : AcceptedHost lib host) : (saved.insert host).Valid lib where
  distinct := nodup_insert h.distinct host
  accepted other hother := (mem_insert.mp hother).elim (h.accepted other)
    fun heq => heq ▸ haccepted
  last other hlast :=
    mem_insert.mpr (Or.inl (h.last other (lastConnected_insert saved host ▸ hlast)))

theorem SavedHosts.Valid.select {saved : SavedHosts} (h : saved.Valid lib) {host : String}
    (haccepted : AcceptedHost lib host) :
    SavedHosts.Valid lib { saved.insert host with lastConnected := some host } := by
  have hinsert := h.insert haccepted
  refine ⟨hinsert.distinct, hinsert.accepted, fun other hother => ?_⟩
  rw [← Option.some.inj hother]
  exact mem_insert.mpr (Or.inr rfl)

theorem valid_empty : SavedHosts.Valid lib {} :=
  ⟨List.nodup_nil, fun _ h => absurd h List.not_mem_nil, nofun⟩

/-! ## Loading -/

theorem rememberWithoutSelecting_triple (host : String) :
    Triple (SavedHosts.Valid lib) (SavedHosts.rememberWithoutSelecting lib host)
      (fun _ => SavedHosts.Valid lib) fun _ => SavedHosts.Valid lib := by
  apply Triple.intro
  intro saved h
  rw [rememberWithoutSelecting_run]
  cases hnormalized : normalizedHost lib host with
  | error error =>
      dsimp only
      exact h
  | ok normalized =>
      dsimp only
      obtain ⟨rfl, haccepted⟩ := normalizedHost_eq_ok.mp hnormalized
      exact h.insert haccepted

theorem remember_triple (host : String) :
    Triple (SavedHosts.Valid lib) (SavedHosts.remember lib host)
      (fun _ => SavedHosts.Valid lib) fun _ => SavedHosts.Valid lib := by
  apply Triple.intro
  intro saved h
  rw [remember_run]
  cases hnormalized : normalizedHost lib host with
  | error error =>
      dsimp only
      exact h
  | ok normalized =>
      dsimp only
      obtain ⟨rfl, haccepted⟩ := normalizedHost_eq_ok.mp hnormalized
      exact h.select haccepted

/-- Whatever the document says, what is read from it is valid. -/
theorem ofDocument_valid {document : SavedHostsDocument} {saved : SavedHosts}
    (hok : SavedHosts.ofDocument lib document = .ok saved) : saved.Valid lib := by
  have hreplay : Triple (SavedHosts.Valid lib) (SavedHosts.replay lib document)
      (fun _ => SavedHosts.Valid lib) fun _ => SavedHosts.Valid lib := by
    refine Triple.bind (Triple.forM_invariant rememberWithoutSelecting_triple) fun _ => ?_
    cases document.lastConnected with
    | none => exact Triple.pure fun _ h => h
    | some host => exact remember_triple host
  unfold SavedHosts.ofDocument at hok
  split_ifs at hok with hversion
  cases hrun : (SavedHosts.replay lib document).run {} with
  | error error _ =>
      rw [hrun] at hok
      cases hok
  | ok _ next =>
      rw [hrun] at hok
      exact Except.ok.inj hok ▸ hreplay.ok valid_empty hrun

/-- Replaying distinct accepted hosts behind others appends them in order. -/
theorem replay_accepted {hosts : List String} {saved : SavedHosts}
    (haccepted : ∀ host ∈ hosts, AcceptedHost lib host) (hdistinct : (saved.hosts ++ hosts).Nodup) :
    (hosts.forM (SavedHosts.rememberWithoutSelecting lib)).run saved =
      .ok ⟨⟩ { saved with hosts := saved.hosts ++ hosts } := by
  induction hosts generalizing saved with
  | nil =>
      rw [List.append_nil]
      rfl
  | cons host hosts ih =>
      have hhost := haccepted host (List.mem_cons_self ..)
      have hnew : host ∉ saved.hosts := fun hmem =>
        (List.nodup_append.mp hdistinct).2.2 host hmem host (List.mem_cons_self ..) rfl
      have hhead : (SavedHosts.rememberWithoutSelecting lib host).run saved =
          .ok () { saved with hosts := saved.hosts ++ [host] } := by
        rw [rememberWithoutSelecting_run, normalizedHost_of_accepted hhost]
        simp only [SavedHosts.insert, if_neg hnew]
      have hmoved : saved.hosts ++ host :: hosts = (saved.hosts ++ [host]) ++ hosts := by simp
      rw [List.forM_eq_forM, List.forM_cons, EStateM.run_bind, hhead, hmoved]
      exact ih (fun other hother => haccepted other (List.mem_cons_of_mem _ hother))
        (hmoved ▸ hdistinct)

/-- A valid history is what its document is read as. -/
theorem ofDocument_document {saved : SavedHosts} (h : saved.Valid lib) :
    SavedHosts.ofDocument lib saved.document = .ok saved := by
  have hhosts : (saved.hosts.forM (SavedHosts.rememberWithoutSelecting lib)).run {} =
      .ok ⟨⟩ { hosts := saved.hosts } := replay_accepted h.accepted h.distinct
  have hreplay : (SavedHosts.replay lib saved.document).run {} = .ok ⟨⟩ saved := by
    unfold SavedHosts.replay
    rw [EStateM.run_bind, SavedHosts.document, hhosts]
    cases hlast : saved.lastConnected with
    | none =>
        show EStateM.Result.ok () (⟨saved.hosts, none⟩ : SavedHosts) = .ok () saved
        rw [← hlast]
    | some host =>
        have hmem := h.last host hlast
        show (SavedHosts.remember lib host).run { hosts := saved.hosts } = _
        rw [remember_run, normalizedHost_of_accepted (h.accepted host hmem)]
        simp only [SavedHosts.insert, if_pos hmem]
        rw [← hlast]
  rw [SavedHosts.ofDocument, hreplay]
  exact if_neg (not_not.mpr rfl)

/-! ## Files -/

section Files

variable {json : Json SavedHostsDocument} {io : Io} {directory : Directory}

theorem loadFrom_document {document : SavedHostsDocument}
    (hload : loadDocument json io directory hostsFile = .ok (some document)) :
    SavedHosts.loadFrom lib json io directory = SavedHosts.ofDocument lib document := by
  rw [SavedHosts.loadFrom, hload]
  rfl

theorem loadFrom_error {error : ControlError}
    (hload : loadDocument json io directory hostsFile = .error error) :
    SavedHosts.loadFrom lib json io directory = .error error := by
  rw [SavedHosts.loadFrom, hload]
  rfl

theorem loadFrom_valid {saved : SavedHosts}
    (hok : SavedHosts.loadFrom lib json io directory = .ok saved) : saved.Valid lib := by
  cases hload : loadDocument json io directory hostsFile with
  | error error =>
      rw [loadFrom_error hload] at hok
      cases hok
  | ok document =>
      cases document with
      | none =>
          have hempty : SavedHosts.loadFrom lib json io directory = .ok {} := by
            rw [SavedHosts.loadFrom, hload]
            rfl
          rw [hempty] at hok
          exact Except.ok.inj hok ▸ valid_empty
      | some document =>
          rw [loadFrom_document hload] at hok
          exact ofDocument_valid hok

/-- A document that a save leaves whole is loaded as the saved history. -/
theorem loadFrom_whole (hjson : json.Faithful) {saved : SavedHosts} (h : saved.Valid lib)
    {bytes : Bytes} (hbytes : json.toVecPretty saved.document = .ok bytes)
    (hpoint : io.savePoint hostsFile bytes.length = .whole) {loading : Io}
    (hreads : loading.Reads) :
    SavedHosts.loadFrom lib json loading (saved.saveTo json io directory).2 = .ok saved := by
  rw [SavedHosts.saveTo, loadFrom_document (loadDocument_whole hjson hbytes hpoint hreads)]
  exact ofDocument_document h

theorem load_after_save (hjson : json.Faithful) {saved : SavedHosts} (h : saved.Valid lib)
    (directory : Directory) :
    SavedHosts.loadFrom lib json Io.working (saved.saveTo json Io.working directory).2 =
      .ok saved := by
  obtain ⟨bytes, hbytes⟩ := hjson.text saved.document
  exact loadFrom_whole hjson h hbytes rfl working_reads

end Files

/-! ## Sequences of calls -/

section Calls

/-- A history in memory and the directory that it is saved in. -/
structure HostsState where
  saved : SavedHosts := {}
  directory : Directory

inductive HostsCall
  | remember (host : String)
  | save
  | load
  deriving DecidableEq

variable (lib : UrlLibrary) (json : Json SavedHostsDocument)

def HostsState.step (s : HostsState) : HostsCall → HostsState
  | .remember host =>
      match (SavedHosts.remember lib host).run s.saved with
      | .ok () saved => { s with saved }
      | .error _ saved => { s with saved }
  | .save => { s with directory := (s.saved.saveTo json Io.working s.directory).2 }
  | .load =>
      match SavedHosts.loadFrom lib json Io.working s.directory with
      | .ok saved => { s with saved }
      | .error _ => s

def HostsState.run (s : HostsState) (calls : List HostsCall) : HostsState :=
  calls.foldl (HostsState.step lib json) s

variable {lib json}

/-- A remembered host becomes the last connected one, unless it is refused. -/
theorem step_remember (s : HostsState) (host : String) :
    (∃ normalized, normalizedHost lib host = .ok normalized ∧
      s.step lib json (.remember host) =
        { s with saved := { s.saved.insert normalized with lastConnected := some normalized } }) ∨
      s.step lib json (.remember host) = s := by
  -- the equation of `step` would run the whole `remember`
  delta HostsState.step
  dsimp only
  rw [remember_run]
  cases normalizedHost lib host with
  | error error => exact .inr rfl
  | ok normalized => exact .inl ⟨normalized, rfl, rfl⟩

theorem step_load (s : HostsState) :
    (∃ stored, SavedHosts.loadFrom lib json Io.working s.directory = .ok stored ∧
      s.step lib json .load = { s with saved := stored }) ∨ s.step lib json .load = s := by
  delta HostsState.step
  dsimp only
  cases SavedHosts.loadFrom lib json Io.working s.directory with
  | error error => exact .inr rfl
  | ok stored => exact .inl ⟨stored, rfl, rfl⟩

theorem step_valid {s : HostsState} (h : s.saved.Valid lib) (call : HostsCall) :
    (s.step lib json call).saved.Valid lib := by
  cases call with
  | remember host =>
      obtain ⟨normalized, hnormalized, hstep⟩ | hstep := @step_remember lib json s host
      · obtain ⟨rfl, haccepted⟩ := normalizedHost_eq_ok.mp hnormalized
        rw [hstep]
        exact h.select haccepted
      · rwa [hstep]
  | save => exact h
  | load =>
      obtain ⟨stored, hstored, hstep⟩ | hstep := @step_load lib json s
      · rw [hstep]
        exact loadFrom_valid hstored
      · rwa [hstep]

theorem run_valid {s : HostsState} (h : s.saved.Valid lib) (calls : List HostsCall) :
    (s.run lib json calls).saved.Valid lib := by
  induction calls generalizing s with
  | nil => exact h
  | cons call calls ih => exact ih (step_valid h call)

/-- Without a load no host moves. -/
theorem step_grows {s : HostsState} {call : HostsCall} (hcall : call ≠ .load) :
    s.saved.hosts <+: (s.step lib json call).saved.hosts := by
  cases call with
  | remember host =>
      obtain ⟨normalized, -, hstep⟩ | hstep := @step_remember lib json s host
      · rw [hstep]
        exact insert_prefix s.saved normalized
      · rw [hstep]
  | save => exact List.prefix_refl _
  | load => exact absurd rfl hcall

theorem run_grows {s : HostsState} {calls : List HostsCall} (hcalls : .load ∉ calls) :
    s.saved.hosts <+: (s.run lib json calls).saved.hosts := by
  induction calls generalizing s with
  | nil => exact List.prefix_refl _
  | cons call calls ih =>
      rw [List.mem_cons, not_or] at hcalls
      exact (step_grows fun h => hcalls.1 h.symm).trans (ih hcalls.2)

/-- The file holds a history that begins with `hosts`, and so does the memory. -/
structure Stored (lib : UrlLibrary) (json : Json SavedHostsDocument) (hosts : List String)
    (s : HostsState) : Prop where
  memory : hosts <+: s.saved.hosts
  valid : s.saved.Valid lib
  file : ∃ stored, SavedHosts.loadFrom lib json Io.working s.directory = .ok stored ∧
    hosts <+: stored.hosts

theorem Stored.step (hjson : json.Faithful) {hosts : List String} {s : HostsState}
    (h : Stored lib json hosts s) (call : HostsCall) :
    Stored lib json hosts (s.step lib json call) := by
  have hvalid := @step_valid lib json s h.valid call
  obtain ⟨stored, hload, hstored⟩ := h.file
  cases call with
  | remember host =>
      have hdirectory : (s.step lib json (.remember host)).directory = s.directory := by
        obtain ⟨normalized, -, hstep⟩ | hstep := @step_remember lib json s host <;> rw [hstep]
      refine ⟨h.memory.trans (step_grows (by simp)), hvalid, stored, ?_, hstored⟩
      rw [hdirectory]
      exact hload
  | save => exact ⟨h.memory, hvalid, s.saved, load_after_save hjson h.valid _, h.memory⟩
  | load =>
      obtain ⟨loaded, hloaded, hstep⟩ | hstep := @step_load lib json s
      · obtain rfl : stored = loaded := Except.ok.inj (hload.symm.trans hloaded)
        rw [hstep] at hvalid ⊢
        exact ⟨hstored, hvalid, stored, hload, hstored⟩
      · rwa [hstep]

theorem run_append (s : HostsState) (calls more : List HostsCall) :
    s.run lib json (calls ++ more) = (s.run lib json calls).run lib json more :=
  List.foldl_append

theorem run_cons (s : HostsState) (call : HostsCall) (calls : List HostsCall) :
    s.run lib json (call :: calls) = (s.step lib json call).run lib json calls :=
  List.foldl_cons ..

theorem Stored.run (hjson : json.Faithful) {hosts : List String} {s : HostsState}
    (h : Stored lib json hosts s) (calls : List HostsCall) :
    Stored lib json hosts (s.run lib json calls) := by
  induction calls generalizing s with
  | nil => exact h
  | cons call calls ih =>
      rw [run_cons]
      exact ih (h.step hjson call)

/-- Once hosts were saved, no call moves them. -/
theorem stored_after_save (hjson : json.Faithful) {s : HostsState} (h : s.saved.Valid lib)
    (calls : List HostsCall) :
    s.saved.hosts <+: (s.run lib json (.save :: calls)).saved.hosts := by
  have hsaved : Stored lib json s.saved.hosts (s.step lib json .save) :=
    ⟨List.prefix_refl _, h, s.saved, load_after_save hjson h _, List.prefix_refl _⟩
  rw [run_cons]
  exact (hsaved.run hjson calls).memory

/-- A history reached from the empty one by any remembered strings, saves and loads,
in a directory with any `hosts.json`, is distinct, trimmed, accepted and has its last
host among its hosts; a rejected string changes nothing and an accepted one is selected
and inserted at most once; hosts keep their positions until a load goes back to before
they were saved, and for good once they were; and a load after a save returns the saved
history. -/
theorem saved_hosts_history (lib : UrlLibrary) (json : Json SavedHostsDocument)
    (hjson : json.Faithful) (directory : Directory) (calls : List HostsCall) :
    let s := HostsState.run lib json { directory } calls
    (s.saved.hosts.Nodup ∧
      (∀ host ∈ s.saved.hosts,
        trim host = host ∧ ∃ endpoint, Endpoint.parse lib host = .ok endpoint) ∧
      ∀ host, s.saved.lastConnected = some host → host ∈ s.saved.hosts) ∧
    (∀ host error left, (SavedHosts.remember lib host).run s.saved = .error error left →
      left = s.saved) ∧
    (∀ host next, (SavedHosts.remember lib host).run s.saved = .ok () next →
      next.lastConnected = some (trim host) ∧
        next.hosts = if trim host ∈ s.saved.hosts then s.saved.hosts
          else s.saved.hosts ++ [trim host]) ∧
    (∀ unsaved, .load ∉ unsaved → s.saved.hosts <+: (s.run lib json unsaved).saved.hosts ∧
      ∀ more, s.saved.hosts <+: (s.run lib json (unsaved ++ .save :: more)).saved.hosts) ∧
    SavedHosts.loadFrom lib json Io.working (s.saved.saveTo json Io.working s.directory).2 =
      .ok s.saved := by
  intro s
  have hvalid : s.saved.Valid lib := run_valid valid_empty calls
  refine ⟨⟨hvalid.distinct, hvalid.accepted, hvalid.last⟩, fun host error left hrun => ?_,
    fun host next hrun => ?_, fun unsaved hunsaved => ?_, load_after_save hjson hvalid _⟩
  · exact remember_error hrun
  · obtain ⟨normalized, hname, hnext⟩ := remember_ok hrun
    rw [← hname, hnext]
    exact ⟨rfl, hosts_insert ..⟩
  · have hfirst := @run_grows lib json s unsaved hunsaved
    refine ⟨hfirst, fun more => hfirst.trans ?_⟩
    rw [run_append]
    exact stored_after_save hjson (run_valid hvalid unsaved) more

end Calls

theorem saved_hosts_history_local :
    let json := PlainJson.json PlainJson.hostsSamples
    let s := HostsState.run PlainUrl.library json { directory := fun _ => none }
      [.remember " 10.0.0.2 ", .remember "", .save, .remember "10.0.0.3", .load]
    s.saved = PlainJson.oneHost ∧ s.saved.hosts.Nodup ∧
      SavedHosts.loadFrom PlainUrl.library json Io.working
        (s.saved.saveTo json Io.working s.directory).2 = .ok s.saved := by
  have h := saved_hosts_history PlainUrl.library (PlainJson.json PlainJson.hostsSamples)
    (PlainJson.json_faithful PlainJson.hostsSamples_samples) (fun _ => none)
    [.remember " 10.0.0.2 ", .remember "", .save, .remember "10.0.0.3", .load]
  dsimp only at h ⊢
  refine ⟨by decide +kernel, ?_, ?_⟩
  · exact h.1.1
  · exact h.2.2.2.2

/-- A load without a save forgets the host, and it is remembered behind another one. -/
theorem stored_host_moves :
    let json := PlainJson.json PlainJson.hostsSamples
    let after := HostsState.run PlainUrl.library json { directory := fun _ => none }
    let moving := [.remember "10.0.0.2", .load, .remember "10.0.0.3", .remember "10.0.0.2"]
    json.Faithful ∧
      (after (moving.take 1)).saved.hosts = ["10.0.0.2"] ∧
      (after moving).saved.hosts = ["10.0.0.3", "10.0.0.2"] :=
  ⟨PlainJson.json_faithful PlainJson.hostsSamples_samples, by decide +kernel, by decide +kernel⟩

end Valid

end MoonlightScarlet.Control
