import MoonlightScarlet.Control.Proofs.Session
/-!
# Launching on a busy host

Whether a host is idle is decided by the number that `parseServerInfo` reads, not by
the state that the document reports.  The two differ when a busy host reports no
application that can be read.
-/

namespace MoonlightScarlet.Control

open Support.Fallible

theorem requiredText_eq_ok {document : Document} {tag text : String} :
    requiredText document tag = .ok text ↔ optionalText document tag = some text := by
  unfold requiredText
  cases optionalText document tag with
  | none => exact ⟨nofun, nofun⟩
  | some found => simp

/-- What the parser takes from a document for the decision. -/
theorem parseServerInfo_reads {parse : XmlParser} {xml : String} {document : Document}
    {server : ServerInfo} (hdocument : checkedDocument parse xml = .ok document)
    (hserver : parseServerInfo parse xml = .ok server) :
    (server.paired = true ↔ optionalText document "PairStatus" = some "1") ∧
      server.currentGame = currentGame document server.state := by
  unfold parseServerInfo at hserver
  rw [hdocument] at hserver
  simp only [bind_eq_ok, Except.ok.injEq, exists_eq_left', requiredText_eq_ok] at hserver
  obtain ⟨state, -, _, -, _, -, _, -, pairStatus, hpair, hserver⟩ := hserver
  cases hserver
  exact ⟨by simp [hpair], rfl⟩

theorem currentGame_ne_zero_iff {document : Document} {state : String}
    (hbusy : endsWith state "_SERVER_BUSY" = true) :
    currentGame document state ≠ 0 ↔ ∃ text game,
      optionalText document "currentgame" = some text ∧ parseU32 text = some game ∧ game ≠ 0 := by
  rw [currentGame, if_pos hbusy]
  cases htext : optionalText document "currentgame" with
  | none => simp
  | some text =>
      cases hgame : parseU32 text with
      | none => simp [hgame]
      | some game => simp [hgame]

def Launches (entry : ControlM StreamSession) (start : Trace) : Prop :=
  ∃ result events exchange, Ran entry start result events ∧ .exchange exchange ∈ events ∧
    exchange.request.command = "launch"

section Idle

variable {client : GameStreamClient} {lib : Libraries} {world : World} {host : ConnectedHost}
  {application : Application} {config : LaunchConfig} {start : Trace} {xml : String}
  {server : ServerInfo}

theorem sessionServerInfo_run
    (hxml : world.host start.events (serverInfoRequest client host) = .ok xml)
    (hserver : parseServerInfo lib.parseXml xml = .ok server) (hpaired : server.paired = true) :
    (client.sessionServerInfo lib world host).run start =
      .ok server (start.log (.exchange ⟨serverInfoRequest client host, .ok xml⟩)) := by
  have hget : (client.get world host.endpoint "https" host.server.httpsPort "serverinfo" []
      requestTimeout).run start =
        (ofExcept (world.host start.events (serverInfoRequest client host))).run (start.log
          (.exchange ⟨serverInfoRequest client host,
            world.host start.events (serverInfoRequest client host)⟩)) := rfl
  rw [hxml] at hget
  unfold GameStreamClient.sessionServerInfo GameStreamClient.authenticatedServerInfo
  rw [bind_assoc, EStateM.run_bind, hget]
  simp [ofExcept, hserver, hpaired]

/-- An accepted call that finds the host idle sends the request, whatever comes of it. -/
theorem startWith_launches {choose : ServerInfo → Except ControlError StartVerb}
    (haccepted : Accepted host application config)
    (hxml : world.host start.events (serverInfoRequest client host) = .ok xml)
    (hserver : parseServerInfo lib.parseXml xml = .ok server) (hpaired : server.paired = true)
    (hchoose : choose server = .ok .launch) :
    Launches (startWith client lib world host application config choose) start := by
  obtain ⟨hconfig, happlication⟩ := accepted_iff.mp haccepted
  have hrun : startWith client lib world host application config choose start =
      (client.requestSession lib world host server application config .launch).run
        (start.log (.exchange ⟨serverInfoRequest client host, .ok xml⟩)) := by
    unfold startWith
    rw [hconfig, happlication, ofExcept_ok_bind, ofExcept_ok_bind]
    refine (EStateM.run_bind ..).trans ?_
    rw [sessionServerInfo_run hxml hserver hpaired]
    simp only [hchoose, ofExcept_ok_bind]
  let Sent (events : List Event) : Prop :=
    ∃ exchange, .exchange exchange ∈ events ∧ exchange.request.command = "launch"
  have htriple : Triple (Sofar start [.exchange ⟨serverInfoRequest client host, .ok xml⟩])
      (client.requestSession lib world host server application config .launch) _
      (Failed start Sent) :=
    requestSession_triple fun exchange hcommand => ⟨exchange, by simp, hcommand⟩
  have hinfo : Sofar start [.exchange ⟨serverInfoRequest client host, .ok xml⟩]
      (start.log (.exchange ⟨serverInfoRequest client host, .ok xml⟩)) := rfl
  cases hend : (client.requestSession lib world host server application config .launch).run
      (start.log (.exchange ⟨serverInfoRequest client host, .ok xml⟩)) with
  | ok session trace =>
      obtain ⟨_, _, htrace, ⟨exchange, hmem, hlaunch⟩, -⟩ := htriple.ok hinfo hend
      exact ⟨_, _, exchange, .of_ok (hrun.trans hend) htrace, hmem, hlaunch⟩
  | error failure trace =>
      obtain ⟨-, events, htrace, exchange, hmem, hlaunch⟩ := htriple.error hinfo hend
      exact ⟨_, events, exchange, .of_error (hrun.trans hend) htrace, hmem, hlaunch⟩

/-- The decision in terms of the reply that the call gets. -/
theorem startWith_launches_iff {choose : ServerInfo → Except ControlError StartVerb}
    (hallowed : Allowed application choose)
    (hchoose : ∀ server, server.currentGame = 0 → choose server = .ok .launch)
    (hxml : world.host start.events (serverInfoRequest client host) = .ok xml)
    (hserver : parseServerInfo lib.parseXml xml = .ok server) :
    Launches (startWith client lib world host application config choose) start ↔
      Accepted host application config ∧ server.paired = true ∧ server.currentGame = 0 := by
  constructor
  · rintro ⟨result, events, exchange, hran, hmem, hlaunch⟩
    obtain ⟨result', events', hran', hproper, -, -⟩ := startWith_followsProtocol hallowed
    obtain ⟨-, rfl⟩ := hran.unique hran'
    obtain ⟨haccepted, other, ⟨xml', hxml', hother, hpaired⟩, -, hidle, -⟩ :=
      hproper exchange hmem (.inl hlaunch)
    obtain rfl : xml = xml' := Except.ok.inj (hxml.symm.trans hxml')
    obtain rfl : server = other := Except.ok.inj (hserver.symm.trans hother)
    exact ⟨haccepted, hpaired, hidle hlaunch⟩
  · rintro ⟨haccepted, hpaired, hidle⟩
    exact startWith_launches haccepted hxml hserver hpaired (hchoose server hidle)

/-- On a busy host, no request to launch is sent exactly if the call is refused anyway,
the client is not paired, or the document tells which application is running. -/
theorem busy_never_launches_iff {document : Document}
    (hxml : world.host start.events (serverInfoRequest client host) = .ok xml)
    (hdocument : checkedDocument lib.parseXml xml = .ok document)
    (hserver : parseServerInfo lib.parseXml xml = .ok server)
    (hbusy : endsWith server.state "_SERVER_BUSY" = true) :
    (¬Launches (client.launch lib world host application config) start ∧
        ¬Launches (client.startSession lib world host application config) start) ↔
      ¬Accepted host application config ∨
        optionalText document "PairStatus" ≠ some "1" ∨
        ∃ text game, optionalText document "currentgame" = some text ∧
          parseU32 text = some game ∧ game ≠ 0 := by
  obtain ⟨hpaired, hgame⟩ := parseServerInfo_reads hdocument hserver
  rw [launch_eq, startSession_eq,
    startWith_launches_iff launchChoice_allowed (fun _ h => if_pos h) hxml hserver,
    startWith_launches_iff startChoice_allowed (fun _ h => if_pos h) hxml hserver, and_self,
    ← currentGame_ne_zero_iff hbusy, ← hgame, hpaired]
  tauto

end Idle

/-! ## A busy host that names no application -/

def busyXml : String :=
  "<root status_code=\"200\"><hostname>Studio</hostname><appversion>7.1.431.-1</appversion>" ++
  "<uniqueid>ABC</uniqueid><PairStatus>1</PairStatus><state>SUNSHINE_SERVER_BUSY</state></root>"

/-- The tree of `busyXml`. -/
def busyDocument : Document :=
  { tag := "root", attributes := [("status_code", "200")]
    children :=
      [.element "hostname" [] [.text "Studio"],
        .element "appversion" [] [.text "7.1.431.-1"],
        .element "uniqueid" [] [.text "ABC"],
        .element "PairStatus" [] [.text "1"],
        .element "state" [] [.text "SUNSHINE_SERVER_BUSY"]] }

/-- Libraries that can read this document; nothing else is used of them. -/
def busyLibraries : Libraries where
  Certificate := Unit
  PublicKey := Unit
  Signature := Unit
  parseXml xml := if xml = busyXml then .ok busyDocument else .error "not parsed"
  hexError _ := ""
  sha256 _ := Vector.replicate 32 0
  sha1 _ := Vector.replicate 20 0
  encryptBlock _ block := block
  decryptBlock _ block := block
  certificateFromPem _ := .error ""
  signatureBits _ := none
  subjectPublicKeyInfo _ := .error ""
  publicKeyFromDer _ := .error ""
  signatureFromBytes _ := .error ""
  verify _ _ _ := false

def busyServer : ServerInfo :=
  { hostname := "Studio", uniqueId := "ABC", appVersion := "7.1.431.-1", gfeVersion := none
    serverCodecModeSupport := 1, httpsPort := 47984, paired := true, currentGame := 0
    state := "SUNSHINE_SERVER_BUSY" }

def busyHost : ConnectedHost :=
  { endpoint := ⟨"studio.local", 47989⟩, server := busyServer, applications := [⟨1, "Desktop"⟩]
    newlyPaired := false }

def busyClient : GameStreamClient := ⟨⟨"", [], "0123456789ABCDEF", fun _ => []⟩⟩

/-- Every request is answered with the document. -/
def busyWorld : World := ⟨fun _ _ => .ok busyXml, fun _ => 0⟩

theorem parse_busyXml : parseServerInfo busyLibraries.parseXml busyXml = .ok busyServer := by
  decide +kernel

theorem checked_busyXml :
    checkedDocument busyLibraries.parseXml busyXml = .ok busyDocument := by
  have hparse : busyLibraries.parseXml busyXml = .ok busyDocument := by
    simp only [busyLibraries, if_true]
  have hstatus : parseU32 "200" = some 200 := by decide +kernel
  unfold checkedDocument
  rw [hparse]
  simp [busyDocument, Document.attribute, Except.mapError, hstatus, bind, Except.bind, pure,
    Except.pure]

theorem busyHost_accepts : Accepted busyHost ⟨1, "Desktop"⟩ {} :=
  accepted_iff.mpr ⟨by decide +kernel, by decide +kernel⟩

theorem busy_never_launches_iff_busyXml :
    (¬Launches (busyClient.launch busyLibraries busyWorld busyHost ⟨1, "Desktop"⟩ {}) {} ∧
        ¬Launches (busyClient.startSession busyLibraries busyWorld busyHost ⟨1, "Desktop"⟩ {})
          {}) ↔
      ¬Accepted busyHost ⟨1, "Desktop"⟩ {} ∨
        optionalText busyDocument "PairStatus" ≠ some "1" ∨
        ∃ text game, optionalText busyDocument "currentgame" = some text ∧
          parseU32 text = some game ∧ game ≠ 0 :=
  busy_never_launches_iff rfl checked_busyXml parse_busyXml (by decide +kernel)

/-- The document says that the host is busy, and both calls launch. -/
theorem launches_on_busy_host :
    parseServerInfo busyLibraries.parseXml busyXml = .ok busyServer ∧
      endsWith busyServer.state "_SERVER_BUSY" = true ∧
      Launches (busyClient.launch busyLibraries busyWorld busyHost ⟨1, "Desktop"⟩ {}) {} ∧
      Launches (busyClient.startSession busyLibraries busyWorld busyHost ⟨1, "Desktop"⟩ {}) {} := by
  refine ⟨parse_busyXml, by decide +kernel, ?_, ?_⟩
  · rw [launch_eq]
    exact startWith_launches busyHost_accepts rfl parse_busyXml rfl rfl
  · rw [startSession_eq]
    exact startWith_launches busyHost_accepts rfl parse_busyXml rfl rfl

end MoonlightScarlet.Control
