import MoonlightScarlet.App.StreamRun
import MoonlightScarlet.Control.Proofs.Endpoint
import MoonlightScarlet.Control.Proofs.Busy
import Mathlib.Algebra.Group.Nat.Defs
/-!
# Launched sessions and the checks of the connection

The launch request is sent after the checks of `LaunchConfig::validate`, and the connection
makes its own checks afterwards.  They differ in the bounds of the video mode, and the
connection also checks what the host said of itself.
-/

namespace MoonlightScarlet.App

open Control Sys Support.Fallible

/-! ## The checks of the connection -/

section Checks

variable {name value : String} {number : UInt32} {host : HostConnectionInfo}
  {stream : StreamConfiguration}

def Fits (number : UInt32) : Prop := 0 < number.toNat ∧ number.toNat < 2 ^ 31

def Textual (text : String) : Prop := text ≠ "" ∧ Char.ofNat 0 ∉ text.toList

theorem positiveInt_passes : Passes (positiveInt name number) ↔ Fits number := by
  have hzero : number = 0 ↔ number.toNat = 0 := UInt32.toNat_inj.symm
  have hlarge : number > 0x7fffffff ↔ 0x7fffffff < number.toNat := UInt32.lt_iff_toNat_lt
  unfold positiveInt Fits
  split_ifs with h0 h1
  · exact iff_of_false (not_passes_error _) (by rw [hzero] at h0; omega)
  · exact iff_of_false (not_passes_error _) (by rw [hlarge] at h1; omega)
  · rw [hzero] at h0
    rw [hlarge] at h1
    exact iff_of_true (passes_ok _) (by omega)

theorem cString_passes : Passes (cString name value) ↔ Textual value := by
  unfold cString Textual
  split_ifs with hempty hnul
  · exact iff_of_false (not_passes_error _) fun h => h.1 (String.isEmpty_iff.mp hempty)
  · exact iff_of_false (not_passes_error _) fun h => h.2 hnul
  · exact iff_of_true (passes_ok _) ⟨fun h => hempty (String.isEmpty_iff.mpr h), hnul⟩

theorem checkedMul_passes {refusal : ConnectionError} :
    Passes (okOr (checkedMul number 100) refusal >>= positiveInt name) ↔
      0 < number.toNat ∧ number.toNat * 100 < 2 ^ 31 := by
  have hsize : UInt32.size = 2 ^ 32 := rfl
  have hhundred : (100 : UInt32).toNat = 100 := rfl
  unfold checkedMul
  rw [hhundred]
  split_ifs with hlt
  · have hmul : (number * 100).toNat = number.toNat * 100 := by
      rw [UInt32.toNat_mul, hhundred, Nat.mod_eq_of_lt (hsize ▸ hlt)]
    show Passes (positiveInt name (number * 100)) ↔ _
    rw [positiveInt_passes, Fits, hmul]
    omega
  · exact iff_of_false (not_passes_error _) (by omega)

theorem validated_passes : Passes stream.validated ↔
    Fits stream.width ∧ Fits stream.height ∧ Fits stream.fps ∧ Fits stream.bitrateKbps ∧
      Fits stream.packetSize ∧ 0 < stream.fps.toNat ∧ stream.fps.toNat * 100 < 2 ^ 31 := by
  unfold StreamConfiguration.validated
  refine passes_bind_iff positiveInt_passes fun _ _ => ?_
  refine passes_bind_iff positiveInt_passes fun _ _ => ?_
  refine passes_bind_iff positiveInt_passes fun _ _ => ?_
  refine passes_bind_iff positiveInt_passes fun _ _ => ?_
  refine passes_bind_iff positiveInt_passes fun _ _ => ?_
  rw [← bind_assoc (okOr _ _)]
  exact passes_return_iff.trans checkedMul_passes

theorem mapM_cString_passes {text : Option String} :
    Passes (text.mapM (cString name)) ↔ ∀ value ∈ text, Textual value := by
  cases text with
  | none => exact iff_of_true (passes_ok none) nofun
  | some value =>
      have hmap : (some value).mapM (cString name) =
          cString name value >>= fun string => pure (some string) := by
        cases h : cString name value <;> simp [h]
      rw [hmap]
      refine (passes_return_iff.trans cString_passes).trans ?_
      simp

theorem hostStrings_passes : Passes (HostStrings.new host) ↔
    Textual host.address ∧ Textual host.appVersion ∧
      (∀ version ∈ host.gfeVersion, Textual version) ∧ Textual host.rtspSessionUrl := by
  unfold HostStrings.new
  refine passes_bind_iff cString_passes fun _ _ => ?_
  refine passes_bind_iff cString_passes fun _ _ => ?_
  refine passes_bind_iff mapM_cString_passes fun _ _ => ?_
  exact passes_return_iff.trans cString_passes

theorem checkInputs_passes : Passes (checkInputs host stream) ↔
    (Textual host.address ∧ Textual host.appVersion ∧
      (∀ version ∈ host.gfeVersion, Textual version) ∧ Textual host.rtspSessionUrl) ∧
    (Fits stream.width ∧ Fits stream.height ∧ Fits stream.fps ∧ Fits stream.bitrateKbps ∧
      Fits stream.packetSize ∧ 0 < stream.fps.toNat ∧ stream.fps.toNat * 100 < 2 ^ 31) ∧
    Fits host.serverCodecModeSupport := by
  unfold checkInputs
  refine passes_bind_iff hostStrings_passes fun _ _ => ?_
  refine passes_bind_iff validated_passes fun _ _ => ?_
  exact passes_return_iff.trans positiveInt_passes

end Checks

/-! ## What a started session is made of -/

/-- No text of a parsed document has a NUL, which is no character of XML. -/
def NoNul (parse : XmlParser) : Prop :=
  ∀ xml document, parse xml = .ok document → ∀ node ∈ document.descendants, ∀ text,
    node.text? = some text → Char.ofNat 0 ∉ text.toList

/-- The session in terms of the reply to the first request and of a later one. -/
structure MadeFrom (lib : Libraries) (host : ConnectedHost) (config : LaunchConfig) (xml : String)
    (session : StreamSession) : Prop where
  valid : config.validate = .ok ()
  endpoint : session.endpoint = host.endpoint
  config : session.config = config
  server : ∃ server game, parseServerInfo lib.parseXml xml = .ok server ∧
    session.server = { server with currentGame := game }
  sessionUrl : ∃ reply, responseText lib.parseXml reply "sessionUrl0" = .ok session.sessionUrl
  nonempty : session.sessionUrl ≠ ""

section Session

variable {client : GameStreamClient} {lib : Libraries} {world : World} {host : ConnectedHost}
  {application : Application} {config : LaunchConfig} {start trace : Trace}
  {session : StreamSession} {xml : String}

theorem requestSession_made {server : ServerInfo} {verb : StartVerb} {new : List Event}
    (hvalid : config.validate = .ok ())
    (hserver : parseServerInfo lib.parseXml xml = .ok server) :
    Triple (Sofar start new)
      (client.requestSession lib world host server application config verb)
      (fun session _ => MadeFrom lib host config xml session)
      (Failed start fun _ => True) := by
  unfold GameStreamClient.requestSession
  refine randomBytes_bind fun key => ?_
  refine randomBytes_bind fun keyIdBytes => ?_
  refine request_bind (fun _ => trivial) fun reply _ => ?_
  refine ofExcept_bind trivial fun _ _ => ?_
  refine ofExcept_bind trivial fun sessionUrl hurl => ?_
  dsimp only
  split_ifs with hempty
  · exact failed_triple trivial
  · refine .pure fun _ _ => ⟨hvalid, rfl, rfl, ⟨server, application.id, hserver, rfl⟩,
      ⟨reply, hurl⟩, ?_⟩
    simpa using hempty

theorem startWith_made {choose : ServerInfo → Except ControlError StartVerb} :
    Triple (Sofar start []) (startWith client lib world host application config choose)
      (fun session _ => ∃ xml, world.host start.events (serverInfoRequest client host) = .ok xml ∧
        MadeFrom lib host config xml session)
      (Failed start fun _ => True) := by
  unfold startWith
  refine ofExcept_bind trivial fun _ hvalid => ?_
  refine ofExcept_bind trivial fun _ _ => ?_
  refine sessionServerInfo_bind (fun _ => trivial) fun xml server hxml hserver _ => ?_
  rw [List.append_nil] at hxml
  refine ofExcept_bind trivial fun verb _ => ?_
  exact (requestSession_made hvalid hserver).consequence (fun _ h => h)
    (fun _ _ h => ⟨xml, hxml, h⟩) fun _ _ h => h

theorem startSession_made
    (hrun : (client.startSession lib world host application config).run start =
      .ok session trace) :
    ∃ xml, world.host start.events (serverInfoRequest client host) = .ok xml ∧
      MadeFrom lib host config xml session := by
  rw [startSession_eq] at hrun
  exact startWith_made.ok (List.append_nil _).symm hrun

/-! ## The texts of a session -/

theorem checkedDocument_parse {parse : XmlParser} {xml : String} {document : Document}
    (h : checkedDocument parse xml = .ok document) : parse xml = .ok document := by
  obtain ⟨parsed, hparsed, h⟩ := bind_eq_ok.mp h
  simp only [bind, Except.bind, pure, Except.pure, throw, throwThe, MonadExceptOf.throw] at h
  -- Every check that follows either fails or hands the document on.
  have hsame : parsed = document := by grind
  cases hparse : parse xml with
  | ok => rw [hparse] at hparsed; rw [Except.ok.inj hparsed, hsame]
  | error => rw [hparse] at hparsed; exact nomatch hparsed

theorem optionalText_noNul {parse : XmlParser} (hnul : NoNul parse) {xml : String}
    {document : Document} (hdocument : checkedDocument parse xml = .ok document) {tag text : String}
    (htext : optionalText document tag = some text) : Char.ofNat 0 ∉ text.toList := by
  obtain ⟨node, hfind, hnode⟩ := Option.bind_eq_some_iff.mp htext
  exact hnul xml document (checkedDocument_parse hdocument) node (List.mem_of_find?_eq_some hfind)
    text hnode

theorem responseText_noNul {parse : XmlParser} (hnul : NoNul parse) {xml tag text : String}
    (h : responseText parse xml tag = .ok text) : Char.ofNat 0 ∉ text.toList := by
  obtain ⟨document, hdocument, htext⟩ := bind_eq_ok.mp h
  exact optionalText_noNul hnul hdocument (requiredText_eq_ok.mp htext)

/-- The codecs that the host announces; without a number it is H.264 alone. -/
def announcedCodecs (document : Document) : UInt32 :=
  ((optionalText document "ServerCodecModeSupport").bind parseU32).getD 1

/-- What the connection demands beyond what was checked before the launch. -/
structure WithinBounds (config : LaunchConfig) (document : Document) : Prop where
  width : config.width.toNat < 2 ^ 31
  height : config.height.toNat < 2 ^ 31
  refreshRate : config.fps.toNat * 100 < 2 ^ 31
  codecs : Fits (announcedCodecs document)
  appVersion : optionalText document "appversion" ≠ some ""
  gfeVersion : optionalText document "GfeVersion" ≠ some ""

theorem parseServerInfo_texts {parse : XmlParser} {xml : String} {document : Document}
    {server : ServerInfo} (hdocument : checkedDocument parse xml = .ok document)
    (hserver : parseServerInfo parse xml = .ok server) :
    optionalText document "appversion" = some server.appVersion ∧
      server.gfeVersion = optionalText document "GfeVersion" ∧
      server.serverCodecModeSupport = announcedCodecs document := by
  unfold parseServerInfo at hserver
  rw [hdocument] at hserver
  simp only [bind_eq_ok, Except.ok.injEq, exists_eq_left', requiredText_eq_ok] at hserver
  obtain ⟨_, -, _, -, _, -, appVersion, happVersion, _, -, hserver⟩ := hserver
  cases hserver
  exact ⟨happVersion, rfl, rfl⟩

/-- The address of an endpoint is a text for the connection. -/
theorem endpoint_textual {urls : UrlLibrary} (hurls : urls.Lawful) {input : String}
    {endpoint : Endpoint} (h : Endpoint.parse urls input = .ok endpoint) :
    Textual endpoint.host := by
  obtain ⟨url, hurl, hhost⟩ := Endpoint.parsed h
  obtain ⟨host, hurlHost, htext⟩ := Option.map_eq_some_iff.mp hhost
  exact htext ▸ hurls.hostText hurl hurlHost

theorem fits_iff {number : UInt32} (h : number ≠ 0) : Fits number ↔ number.toNat < 2 ^ 31 := by
  have hpos : number.toNat ≠ 0 := fun hzero => h (UInt32.toNat_inj.mp hzero)
  unfold Fits
  omega

theorem MadeFrom.streamable_iff (h : MadeFrom lib host config xml session)
    (hnul : NoNul lib.parseXml) (hendpoint : Textual host.endpoint.host) {document : Document}
    (hdocument : checkedDocument lib.parseXml xml = .ok document) :
    Streamable session ↔ WithinBounds config document := by
  obtain ⟨hvalid, hsessionEndpoint, hconfig, ⟨server, game, hserver, hsessionServer⟩,
    ⟨reply, hreply⟩, hnonempty⟩ := h
  obtain ⟨⟨hwidth, hheight, hfps⟩, hbitrate, hmax⟩ := validate_eq_ok.mp hvalid
  obtain ⟨happVersion, hgfeVersion, hcodecs⟩ := parseServerInfo_texts hdocument hserver
  have hfpsPos : 0 < config.fps.toNat :=
    Nat.pos_of_ne_zero fun hzero => hfps (UInt32.toNat_inj.mp hzero)
  have hbitrateFits : Fits config.bitrateKbps :=
    (fits_iff hbitrate).mpr (Nat.lt_succ_of_le (UInt32.le_iff_toNat_le.mp hmax))
  have hpacketFits : Fits 1024 := ⟨by decide, by decide⟩
  have hurl : Textual session.sessionUrl := ⟨hnonempty, responseText_noNul hnul hreply⟩
  have happText : Textual server.appVersion ↔ optionalText document "appversion" ≠ some "" := by
    rw [happVersion, ne_eq, Option.some.injEq]
    exact and_iff_left (optionalText_noNul hnul hdocument happVersion)
  have hgfeText : (∀ version ∈ server.gfeVersion, Textual version) ↔
      optionalText document "GfeVersion" ≠ some "" := by
    rw [hgfeVersion]
    constructor
    · exact fun hall hempty => (hall "" hempty).1 rfl
    · intro hne version hversion
      refine ⟨?_, optionalText_noNul hnul hdocument hversion⟩
      rintro rfl
      exact hne hversion
  have hsession : Streamable session ↔
      (Textual host.endpoint.host ∧ Textual server.appVersion ∧
        (∀ version ∈ server.gfeVersion, Textual version) ∧ Textual session.sessionUrl) ∧
      (Fits config.width ∧ Fits config.height ∧ Fits config.fps ∧ Fits config.bitrateKbps ∧
        Fits 1024 ∧ 0 < config.fps.toNat ∧ config.fps.toNat * 100 < 2 ^ 31) ∧
      Fits server.serverCodecModeSupport := by
    unfold Streamable
    rw [checkInputs_passes]
    simp only [hostConnectionInfo, streamConfiguration, StreamConfiguration.new,
      StreamConfiguration.withBitrateKbps, hsessionEndpoint, hsessionServer, hconfig]
  rw [hsession, happText, hgfeText, hcodecs, fits_iff hwidth, fits_iff hheight, fits_iff hfps]
  constructor
  · rintro ⟨⟨-, happ, hgfe, -⟩, ⟨hw, hh, -, -, -, -, hrefresh⟩, hcodec⟩
    exact ⟨hw, hh, hrefresh, hcodec, happ, hgfe⟩
  · rintro ⟨hw, hh, hrefresh, hcodec, happ, hgfe⟩
    exact ⟨⟨hendpoint, happ, hgfe, hurl⟩,
      ⟨hw, hh, by omega, hbitrateFits, hpacketFits, hfpsPos, hrefresh⟩, hcodec⟩

/-- What was launched can be streamed exactly if the video mode and the reply of the host are
within the bounds of the connection. -/
theorem launched_streamable_iff {urls : UrlLibrary} (hurls : urls.Lawful)
    (hnul : NoNul lib.parseXml) {input : String}
    (hendpoint : Endpoint.parse urls input = .ok host.endpoint)
    (hrun : (client.startSession lib world host application config).run start =
      .ok session trace)
    (hxml : world.host start.events (serverInfoRequest client host) = .ok xml)
    {document : Document} (hdocument : checkedDocument lib.parseXml xml = .ok document) :
    Streamable session ↔ WithinBounds config document := by
  obtain ⟨xml', hxml', hmade⟩ := startSession_made hrun
  obtain rfl : xml = xml' := Except.ok.inj (hxml.symm.trans hxml')
  exact hmade.streamable_iff hnul (endpoint_textual hurls hendpoint) hdocument

end Session

/-! ## A host that starts whatever it is asked to -/

def idleXml : String :=
  "<root status_code=\"200\"><hostname>Studio</hostname><appversion>7.1.431.-1</appversion>" ++
  "<uniqueid>ABC</uniqueid><PairStatus>1</PairStatus><state>SUNSHINE_SERVER_FREE</state></root>"

def startedXml : String :=
  "<root status_code=\"200\"><gamesession>1</gamesession>" ++
  "<sessionUrl0>rtsp://192.168.0.100:48010</sessionUrl0></root>"

/-- The tree of `idleXml`. -/
def idleDocument : Document :=
  { tag := "root", attributes := [("status_code", "200")]
    children :=
      [.element "hostname" [] [.text "Studio"],
        .element "appversion" [] [.text "7.1.431.-1"],
        .element "uniqueid" [] [.text "ABC"],
        .element "PairStatus" [] [.text "1"],
        .element "state" [] [.text "SUNSHINE_SERVER_FREE"]] }

/-- The tree of `startedXml`. -/
def startedDocument : Document :=
  { tag := "root", attributes := [("status_code", "200")]
    children :=
      [.element "gamesession" [] [.text "1"],
        .element "sessionUrl0" [] [.text "rtsp://192.168.0.100:48010"]] }

/-- Libraries that can read these two documents. -/
def startLibraries : Libraries :=
  { busyLibraries with
    parseXml := fun xml =>
      if xml = idleXml then .ok idleDocument
      else if xml = startedXml then .ok startedDocument
      else .error "not parsed" }

def startHost : ConnectedHost :=
  { endpoint := ⟨"192.168.0.100", 47989⟩, server := busyServer
    applications := [⟨1, "Desktop"⟩], newlyPaired := false }

def startWorld : World where
  host _ request := .ok (if request.command = "serverinfo" then idleXml else startedXml)
  random _ := 0

/-- The session that the host starts for the configuration. -/
def startedSession (config : LaunchConfig) : StreamSession :=
  { endpoint := ⟨"192.168.0.100", 47989⟩
    server := { busyServer with currentGame := 1, state := "SUNSHINE_SERVER_FREE" }
    application := ⟨1, "Desktop"⟩, config, sessionUrl := "rtsp://192.168.0.100:48010"
    remoteInputAesKey := Vector.replicate 16 0, remoteInputAesIv := Vector.replicate 16 0
    resumed := false }

theorem noNul_of_all {document : Document}
    (h : document.descendants.all fun node =>
      node.text?.all fun text => Char.ofNat 0 ∉ text.toList)
    {node : Node} (hnode : node ∈ document.descendants) {text : String}
    (htext : node.text? = some text) : Char.ofNat 0 ∉ text.toList := by
  have hall := List.all_eq_true.mp h node hnode
  rw [htext] at hall
  exact of_decide_eq_true hall

theorem startLibraries_noNul : NoNul startLibraries.parseXml := by
  intro xml document hparse node hnode text htext
  simp only [startLibraries] at hparse
  split_ifs at hparse
  · cases hparse
    exact noNul_of_all (by decide +kernel) hnode htext
  · cases hparse
    exact noNul_of_all (by decide +kernel) hnode htext

theorem checked_idleXml :
    checkedDocument startLibraries.parseXml idleXml = .ok idleDocument := by
  have hparse : startLibraries.parseXml idleXml = .ok idleDocument := by
    simp only [startLibraries, if_true]
  have hstatus : parseU32 "200" = some 200 := by decide +kernel
  unfold checkedDocument
  rw [hparse]
  simp [idleDocument, Document.attribute, Except.mapError, hstatus, bind, Except.bind, pure,
    Except.pure]

def start? (config : LaunchConfig) : Option StreamSession :=
  match (busyClient.startSession startLibraries startWorld startHost ⟨1, "Desktop"⟩ config).run {}
    with
  | .ok session _ => some session
  | .error _ _ => none

theorem run_of_start? {config : LaunchConfig} {session : StreamSession}
    (h : start? config = some session) :
    ∃ trace, (busyClient.startSession startLibraries startWorld startHost ⟨1, "Desktop"⟩
      config).run {} = .ok session trace := by
  unfold start? at h
  split at h
  case h_1 found trace hrun =>
      cases h
      exact ⟨trace, hrun⟩
  case h_2 => exact nomatch h

theorem launched_streamable_iff_default :
    Streamable (startedSession {}) ↔ WithinBounds {} idleDocument := by
  have hstart : start? {} = some (startedSession {}) := by decide +kernel
  have hendpoint : Endpoint.parse PlainUrl.library "192.168.0.100" =
      .ok startHost.endpoint := by decide +kernel
  obtain ⟨trace, hrun⟩ := run_of_start? hstart
  exact launched_streamable_iff PlainUrl.library_lawful startLibraries_noNul hendpoint hrun rfl
    checked_idleXml

def wideConfig : LaunchConfig := { width := 0x80000000 }

/-- The host starts the application, and the connection refuses the width. -/
theorem wide_launch_not_streamable :
    (∃ trace, (busyClient.startSession startLibraries startWorld startHost ⟨1, "Desktop"⟩
      wideConfig).run {} = .ok (startedSession wideConfig) trace) ∧
      checkInputs (hostConnectionInfo (startedSession wideConfig))
          (streamConfiguration (startedSession wideConfig)) =
        .error (.invalidConfiguration "width does not fit in a C integer") ∧
      ¬Streamable (startedSession wideConfig) := by
  have hrefused : checkInputs (hostConnectionInfo (startedSession wideConfig))
      (streamConfiguration (startedSession wideConfig)) =
        .error (.invalidConfiguration "width does not fit in a C integer") := by decide +kernel
  refine ⟨run_of_start? (by decide +kernel), hrefused, ?_⟩
  unfold Streamable
  rw [hrefused]
  exact not_passes_error _

end MoonlightScarlet.App
