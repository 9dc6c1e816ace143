import MoonlightScarlet.Control.Session
import MoonlightScarlet.Control.Proofs.Trace
/-!
# The session start protocol

The three entry points are one program that asks a choice of its own for the verb.
What they send and return is proved of that program, and they are compared through
their choices.
-/

namespace MoonlightScarlet.Control

open Support.Fallible

/-! ## Key identifiers -/

/-- `i32::to_be_bytes`. -/
def i32ToBeBytes (id : Int32) : Vector UInt8 4 :=
  let value := id.toUInt32.toNat
  #v[UInt8.ofNat (value / 256 / 256 / 256), UInt8.ofNat (value / 256 / 256),
    UInt8.ofNat (value / 256), UInt8.ofNat value]

theorem i32ToBeBytes_fromBeBytes (bytes : Vector UInt8 4) :
    i32ToBeBytes (i32FromBeBytes bytes) = bytes := by
  have h0 := bytes[0].toNat_lt
  have h1 := bytes[1].toNat_lt
  have h2 := bytes[2].toNat_lt
  have h3 := bytes[3].toNat_lt
  have hvalue : (i32FromBeBytes bytes).toUInt32.toNat =
      ((bytes[0].toNat * 256 + bytes[1].toNat) * 256 + bytes[2].toNat) * 256 +
        bytes[3].toNat := by
    rw [i32FromBeBytes, UInt32.toUInt32_toInt32, UInt32.toNat_ofNat']
    omega
  apply Vector.ext
  intro i hi
  apply UInt8.toNat_inj.mp
  have hcases : i = 0 ∨ i = 1 ∨ i = 2 ∨ i = 3 := by omega
  rcases hcases with rfl | rfl | rfl | rfl <;>
    simp only [i32ToBeBytes, hvalue, Vector.getElem_mk, List.getElem_toArray,
      List.getElem_cons_zero, List.getElem_cons_succ, UInt8.toNat_ofNat'] <;> omega

/-! ## One program for the three entry points -/

section Choices

variable (client : GameStreamClient) (lib : Libraries) (world : World) (host : ConnectedHost)
  (application : Application) (config : LaunchConfig)

def startChoice (server : ServerInfo) : Except ControlError StartVerb :=
  if server.currentGame = 0 then .ok .launch
  else if server.currentGame = application.id then .ok .resume
  else
    .error (.session (s!"host is already running application {server.currentGame}; " ++
      s!"cancel it before starting {application.id}"))

def launchChoice (server : ServerInfo) : Except ControlError StartVerb :=
  if server.currentGame = 0 then .ok .launch
  else .error (.session s!"host is already running application {server.currentGame}")

def resumeChoice (server : ServerInfo) : Except ControlError StartVerb :=
  if server.currentGame = 0 then
    .error (.session "host has no running application to resume")
  else if server.currentGame = application.id then .ok .resume
  else
    .error (.session
      s!"host is running application {server.currentGame}, not {application.id}")

/-- Start the application with the verb that `choose` finds for the state of the host. -/
def startWith (choose : ServerInfo → Except ControlError StartVerb) :
    ControlM StreamSession := do
  ofExcept config.validate
  ofExcept (validateApplication host application)
  let server ← client.sessionServerInfo lib world host
  let verb ← ofExcept (choose server)
  client.requestSession lib world host server application config verb

theorem startSession_eq :
    client.startSession lib world host application config =
      startWith client lib world host application config (startChoice application) := by
  unfold GameStreamClient.startSession startWith
  congr; funext _; congr; funext _; congr; funext server
  unfold startChoice
  split_ifs
  · rw [pure_bind, ofExcept_ok_bind]
  · rw [pure_bind, ofExcept_ok_bind]
  · rw [throw_bind, ofExcept_error_bind]

theorem launch_eq :
    client.launch lib world host application config =
      startWith client lib world host application config launchChoice := by
  unfold GameStreamClient.launch startWith
  congr; funext _; congr; funext _; congr; funext server
  unfold launchChoice
  by_cases hidle : server.currentGame = 0
  · rw [if_neg (not_not_intro hidle), if_pos hidle, ofExcept_ok_bind]
  · rw [if_pos hidle, if_neg hidle, throw_bind, ofExcept_error_bind]

theorem resume_eq :
    client.resume lib world host application config =
      startWith client lib world host application config (resumeChoice application) := by
  unfold GameStreamClient.resume startWith
  congr; funext _; congr; funext _; congr; funext server
  unfold resumeChoice
  by_cases hidle : server.currentGame = 0
  · rw [if_pos hidle, if_pos hidle, ofExcept_error_bind]
  · rw [if_neg hidle, if_neg hidle]
    by_cases hrunning : server.currentGame = application.id
    · rw [if_neg (not_not_intro hrunning), if_pos hrunning, ofExcept_ok_bind]
    · rw [if_pos hrunning, if_neg hrunning, ofExcept_error_bind]

end Choices

/-! ## What an entry point sends and returns -/

/-- The configuration is valid and the application is one of the host's. -/
structure Accepted (host : ConnectedHost) (application : Application)
    (config : LaunchConfig) : Prop where
  mode : config.width ≠ 0 ∧ config.height ≠ 0 ∧ config.fps ≠ 0
  bitrate : config.bitrateKbps ≠ 0 ∧ config.bitrateKbps ≤ 0x7fffffff
  id : application.id ≠ 0
  listed : ∃ candidate ∈ host.applications, candidate.id = application.id

theorem validate_eq_ok {config : LaunchConfig} :
    config.validate = .ok () ↔
      (config.width ≠ 0 ∧ config.height ≠ 0 ∧ config.fps ≠ 0) ∧
        config.bitrateKbps ≠ 0 ∧ config.bitrateKbps ≤ 0x7fffffff := by
  unfold LaunchConfig.validate
  split_ifs with hmode hbitrate
  · simp only [false_iff]
    tauto
  · simp only [false_iff, ← UInt32.not_lt]
    tauto
  · simp only [true_iff, ← UInt32.not_lt]
    tauto

theorem validateApplication_eq_ok {host : ConnectedHost} {application : Application} :
    validateApplication host application = .ok () ↔
      application.id ≠ 0 ∧ ∃ candidate ∈ host.applications, candidate.id = application.id := by
  unfold validateApplication
  split_ifs with hid hlisted
  · simp [hid]
  · simp_all
  · simp_all

theorem accepted_iff {host : ConnectedHost} {application : Application} {config : LaunchConfig} :
    Accepted host application config ↔
      config.validate = .ok () ∧ validateApplication host application = .ok () := by
  rw [validate_eq_ok, validateApplication_eq_ok]
  constructor
  · rintro ⟨hmode, hbitrate, hid, hlisted⟩
    exact ⟨⟨hmode, hbitrate⟩, hid, hlisted⟩
  · rintro ⟨⟨hmode, hbitrate⟩, hid, hlisted⟩
    exact ⟨hmode, hbitrate, hid, hlisted⟩

def Request.Starts (request : Request) : Prop :=
  request.command = "launch" ∨ request.command = "resume"

/-- The application that must be running on the host for a verb. -/
def StartVerb.game (application : Application) : StartVerb → UInt32
  | launch => 0
  | resume => application.id

/-- The session in terms of the exchange that started it. -/
structure Prepared (lib : Libraries) (verb : StartVerb) (keyId : Int32) (exchange : Exchange)
    (session : StreamSession) : Prop where
  command : exchange.request.command = verb.command
  rikey : exchange.request.arguments.lookup "rikey" =
    some (hexEncode session.remoteInputAesKey.toList)
  rikeyid : exchange.request.arguments.lookup "rikeyid" = some (toString keyId)
  iv : session.remoteInputAesIv = i32ToBeBytes keyId ++ Vector.replicate 12 (0 : UInt8)
  reply : ∃ xml, exchange.reply = .ok xml ∧
    responseText lib.parseXml xml verb.successTag = .ok "1" ∧
    responseText lib.parseXml xml "sessionUrl0" = .ok session.sessionUrl
  url : session.sessionUrl ≠ ""

theorem flag_of_requireSuccessFlag {parse : XmlParser} {xml tag : String}
    (h : requireSuccessFlag parse xml tag = .ok ()) : responseText parse xml tag = .ok "1" :=
  eq_one_of_check h

section Protocol

variable (client : GameStreamClient) (lib : Libraries) (world : World) (host : ConnectedHost)
  (application : Application) (config : LaunchConfig)

def serverInfoRequest : Request :=
  { endpoint := host.endpoint, scheme := "https", port := host.server.httpsPort
    command := "serverinfo", uniqueId := client.identity.uniqueId, arguments := []
    timeout := requestTimeout }

/-- A call from `start` is told that the client is paired and that the host is `server`. -/
def Reports (start : Trace) (server : ServerInfo) : Prop :=
  ∃ xml, world.host start.events (serverInfoRequest client host) = .ok xml ∧
    parseServerInfo lib.parseXml xml = .ok server ∧ server.paired = true

/-- A request that starts the application is the second and last one, after a reply that
describes a host in the right state. -/
def StartsProperly (start : Trace) (events : List Event) : Prop :=
  ∀ exchange, .exchange exchange ∈ events → exchange.request.Starts →
    Accepted host application config ∧ ∃ server,
      Reports client lib world host start server ∧
      events = [.exchange ⟨serverInfoRequest client host,
        world.host start.events (serverInfoRequest client host)⟩, .exchange exchange] ∧
      (exchange.request.command = "launch" → server.currentGame = 0) ∧
      (exchange.request.command = "resume" → server.currentGame = application.id)

variable {client lib world host application config} {start : Trace} {new : List Event}
  {Q : List Event → Prop}

/-- A call gets one answer only. -/
theorem Reports.unique {server other : ServerInfo}
    (h : Reports client lib world host start server)
    (hother : Reports client lib world host start other) : server = other := by
  obtain ⟨xml, hxml, hserver, -⟩ := h
  obtain ⟨xml', hxml', hserver', -⟩ := hother
  obtain rfl : xml = xml' := Except.ok.inj (hxml.symm.trans hxml')
  exact Except.ok.inj (hserver.symm.trans hserver')

theorem sessionServerInfo_bind {β : Type} {next : ServerInfo → ControlM β}
    {R : β → Trace → Prop}
    (hreply : ∀ reply, Q (new ++ [.exchange ⟨serverInfoRequest client host, reply⟩]))
    (h : ∀ xml server, world.host (start.events ++ new) (serverInfoRequest client host) =
        .ok xml → parseServerInfo lib.parseXml xml = .ok server → server.paired = true →
      Triple (Sofar start (new ++ [.exchange ⟨serverInfoRequest client host, .ok xml⟩]))
        (next server) R (Failed start Q)) :
    Triple (Sofar start new) (client.sessionServerInfo lib world host >>= next) R
      (Failed start Q) := by
  unfold GameStreamClient.sessionServerInfo GameStreamClient.authenticatedServerInfo
  simp only [bind_assoc]
  refine request_bind hreply fun xml hxml => ?_
  refine ofExcept_bind (hreply _) fun server hserver => ?_
  by_cases hpaired : server.paired = true
  · simp only [hpaired, Bool.not_true, Bool.false_eq_true, if_false, pure_bind]
    exact h xml server hxml hserver hpaired
  · simp only [hpaired, Bool.not_false, if_true, throw_bind]
    exact failed_triple (hreply _)

theorem requestSession_triple {server : ServerInfo} {verb : StartVerb}
    (hnew : ∀ exchange : Exchange, exchange.request.command = verb.command →
      Q (new ++ [.exchange exchange])) :
    Triple (Sofar start new)
      (client.requestSession lib world host server application config verb)
      (fun session trace => ∃ exchange keyId,
        Sofar start (new ++ [.exchange exchange]) trace ∧
        Q (new ++ [.exchange exchange]) ∧ Prepared lib verb keyId exchange session)
      (Failed start Q) := by
  unfold GameStreamClient.requestSession
  refine randomBytes_bind fun key => ?_
  refine randomBytes_bind fun keyIdBytes => ?_
  refine request_bind (fun reply => hnew _ rfl) fun xml _ => ?_
  refine ofExcept_bind (hnew _ rfl) fun _ hflag => ?_
  refine ofExcept_bind (hnew _ rfl) fun sessionUrl hurl => ?_
  dsimp only
  split_ifs with hempty
  · exact failed_triple (hnew _ rfl)
  · refine .pure fun trace htrace => ⟨_, i32FromBeBytes keyIdBytes, htrace, hnew _ rfl, ?_⟩
    refine ⟨rfl, rfl, rfl, ?_, ⟨xml, rfl, flag_of_requireSuccessFlag hflag, hurl⟩, ?_⟩
    · rw [i32ToBeBytes_fromBeBytes]
    · simpa using hempty

/-- Every choice is one that the state of the host allows. -/
def Allowed (application : Application)
    (choose : ServerInfo → Except ControlError StartVerb) : Prop :=
  ∀ server verb, choose server = .ok verb → server.currentGame = verb.game application

theorem startChoice_allowed : Allowed application (startChoice application) := by
  intro server verb h
  unfold startChoice at h
  split_ifs at h with hidle hrunning
  · cases h
    exact hidle
  · cases h
    exact hrunning

theorem launchChoice_allowed : Allowed application launchChoice := by
  intro server verb h
  unfold launchChoice at h
  split_ifs at h with hidle
  cases h
  exact hidle

theorem resumeChoice_allowed : Allowed application (resumeChoice application) := by
  intro server verb h
  unfold resumeChoice at h
  split_ifs at h with hidle hrunning
  cases h
  exact hrunning

theorem serverInfoRequest_not_starts : ¬(serverInfoRequest client host).Starts := by
  rintro (hlaunch | hresume)
  · exact absurd hlaunch (by decide : "serverinfo" ≠ "launch")
  · exact absurd hresume (by decide : "serverinfo" ≠ "resume")

theorem StartsProperly.nil : StartsProperly client lib world host application config start [] :=
  nofun

theorem StartsProperly.serverInfo (reply : Except ControlError String) :
    StartsProperly client lib world host application config start
      [.exchange ⟨serverInfoRequest client host, reply⟩] := by
  intro exchange hmem hstarts
  cases List.mem_singleton.mp hmem
  exact absurd hstarts serverInfoRequest_not_starts

/-- The one place where a request to start the application is added. -/
theorem StartsProperly.of_accepted {xml : String} {server : ServerInfo} {verb : StartVerb}
    {exchange : Exchange} (haccepted : Accepted host application config)
    (hxml : world.host start.events (serverInfoRequest client host) = .ok xml)
    (hserver : parseServerInfo lib.parseXml xml = .ok server) (hpaired : server.paired = true)
    (hgame : server.currentGame = verb.game application)
    (hcommand : exchange.request.command = verb.command) :
    StartsProperly client lib world host application config start
      [.exchange ⟨serverInfoRequest client host, .ok xml⟩, .exchange exchange] := by
  intro other hmem hother
  rcases List.mem_pair.mp hmem with hinfo | hlast
  · cases hinfo
    exact absurd hother serverInfoRequest_not_starts
  · cases hlast
    refine ⟨haccepted, server, ⟨xml, hxml, hserver, hpaired⟩, by rw [hxml], ?_⟩
    rw [hcommand]
    cases verb with
    | launch => exact ⟨fun _ => hgame, fun h => absurd h (by decide)⟩
    | resume => exact ⟨fun h => absurd h (by decide), fun _ => hgame⟩

theorem startWith_triple {choose : ServerInfo → Except ControlError StartVerb}
    (hchoose : Allowed application choose) :
    Triple (Sofar start []) (startWith client lib world host application config choose)
      (fun session trace => ∃ info exchange verb keyId,
        Sofar start [info, .exchange exchange] trace ∧
        StartsProperly client lib world host application config start
          [info, .exchange exchange] ∧
        Prepared lib verb keyId exchange session)
      (Failed start (StartsProperly client lib world host application config start)) := by
  unfold startWith
  refine ofExcept_bind .nil fun _ hconfig => ?_
  refine ofExcept_bind .nil fun _ happlication => ?_
  refine sessionServerInfo_bind StartsProperly.serverInfo fun xml server hxml hserver hpaired => ?_
  rw [List.append_nil] at hxml
  refine ofExcept_bind (StartsProperly.serverInfo _) fun verb hverb => ?_
  have hstarts (exchange : Exchange) (hcommand : exchange.request.command = verb.command) :
      StartsProperly client lib world host application config start
        ([.exchange ⟨serverInfoRequest client host, .ok xml⟩] ++ [.exchange exchange]) :=
    .of_accepted (accepted_iff.mpr ⟨hconfig, happlication⟩) hxml hserver hpaired
      (hchoose server verb hverb) hcommand
  refine (requestSession_triple hstarts).consequence (fun _ h => h) ?_ (fun _ _ h => h)
  rintro session trace ⟨exchange, keyId, htrace, hproper, hprepared⟩
  exact ⟨_, exchange, verb, keyId, htrace, hproper, hprepared⟩

/-- Two choices that agree on what the host reports send and return the same. -/
theorem startWith_congr {choose choose' : ServerInfo → Except ControlError StartVerb}
    (h : Accepted host application config → ∀ server, Reports client lib world host start server →
      choose server = choose' server) :
    startWith client lib world host application config choose start =
      startWith client lib world host application config choose' start := by
  have hreports : Triple (Sofar start []) (client.sessionServerInfo lib world host)
      (fun server _ => Reports client lib world host start server)
      (Failed start fun _ => True) := by
    rw [← bind_pure (client.sessionServerInfo lib world host)]
    refine sessionServerInfo_bind (fun _ => trivial) fun xml server hxml hserver hpaired => ?_
    rw [List.append_nil] at hxml
    exact .pure fun _ _ => ⟨xml, hxml, hserver, hpaired⟩
  unfold startWith
  cases hconfig : config.validate with
  | error error => simp only [ofExcept_error_bind]
  | ok =>
      cases happlication : validateApplication host application with
      | error error => simp only [ofExcept_ok_bind, ofExcept_error_bind]
      | ok =>
          simp only [ofExcept_ok_bind]
          refine run_bind_congr fun server trace hserver => ?_
          rw [h (accepted_iff.mpr ⟨hconfig, happlication⟩) server
            (hreports.ok (List.append_nil _).symm hserver)]

variable (client lib world host application config start)

/-- What holds of the run of an entry point. -/
def FollowsProtocol (entry : ControlM StreamSession) : Prop :=
  ∃ result events, Ran entry start result events ∧
    StartsProperly client lib world host application config start events ∧
    (∀ session, result = .ok session → ∃ info exchange verb keyId,
      events = [info, .exchange exchange] ∧ Prepared lib verb keyId exchange session) ∧
    result ≠ .error .panic

/-- The entry point fails and does not ask the host to start anything. -/
def Refused (entry : ControlM StreamSession) : Prop :=
  ∃ error events, Ran entry start (.error (.error error)) events ∧
    ∀ exchange, .exchange exchange ∈ events → ¬exchange.request.Starts

variable {client lib world host application config start}

theorem startWith_followsProtocol {choose : ServerInfo → Except ControlError StartVerb}
    (hchoose : Allowed application choose) :
    FollowsProtocol client lib world host application config start
      (startWith client lib world host application config choose) := by
  have htriple : Triple (Sofar start [])
      (startWith client lib world host application config choose) _ _ := startWith_triple hchoose
  have hstart : Sofar start [] start := (List.append_nil _).symm
  cases hrun : startWith client lib world host application config choose start with
  | ok session trace =>
      obtain ⟨info, exchange, verb, keyId, htrace, hproper, hprepared⟩ :=
        htriple.ok hstart hrun
      refine ⟨.ok session, _, .of_ok hrun htrace, hproper, ?_, nofun⟩
      rintro _ ⟨⟩
      exact ⟨info, exchange, verb, keyId, rfl, hprepared⟩
  | error failure trace =>
      obtain ⟨⟨error, rfl⟩, events, htrace, hproper⟩ := htriple.error hstart hrun
      exact ⟨.error (.error error), events, .of_error hrun htrace, hproper, nofun, nofun⟩

theorem FollowsProtocol.refused {entry : ControlM StreamSession}
    (h : FollowsProtocol client lib world host application config start entry)
    (hstate : ¬∃ server, Reports client lib world host start server ∧
      (server.currentGame = 0 ∨ server.currentGame = application.id)) :
    Refused start entry := by
  obtain ⟨result, events, hran, hproper, hok, hpanic⟩ := h
  have hnone (exchange : Exchange) (hmem : .exchange exchange ∈ events) :
      ¬exchange.request.Starts := by
    intro hstarts
    obtain ⟨-, server, hreports, -, hlaunch, hresume⟩ := hproper exchange hmem hstarts
    exact hstate ⟨server, hreports, hstarts.imp hlaunch hresume⟩
  rcases result with (error | _) | session
  · exact ⟨error, events, hran, hnone⟩
  · exact absurd rfl hpanic
  · obtain ⟨info, exchange, verb, keyId, rfl, hprepared⟩ := hok session rfl
    refine absurd ?_ (hnone exchange (by simp))
    rw [Request.Starts, hprepared.command]
    cases verb with
    | launch => exact .inl rfl
    | resume => exact .inr rfl

end Protocol

/-- The three entry points keep the protocol, and `startSession` is `launch` on an idle
host and `resume` on a host that runs the application. -/
theorem session_start_protocol (client : GameStreamClient) (lib : Libraries) (world : World)
    (host : ConnectedHost) (application : Application) (config : LaunchConfig)
    (start : Trace) :
    let startSession := client.startSession lib world host application config
    let launch := client.launch lib world host application config
    let resume := client.resume lib world host application config
    let follows := FollowsProtocol client lib world host application config start
    let reports := Reports client lib world host start
    (follows startSession ∧ follows launch ∧ follows resume) ∧
    (∀ server, reports server → server.currentGame = 0 → startSession start = launch start) ∧
    (∀ server, reports server → server.currentGame = application.id →
      startSession start = resume start) ∧
    ((¬∃ server, reports server ∧
        (server.currentGame = 0 ∨ server.currentGame = application.id)) →
      Refused start startSession ∧ Refused start launch ∧ Refused start resume) := by
  intro startSession launch resume follows reports
  have hstart : follows startSession := by
    unfold follows startSession
    rw [startSession_eq]
    exact startWith_followsProtocol startChoice_allowed
  have hlaunch : follows launch := by
    unfold follows launch
    rw [launch_eq]
    exact startWith_followsProtocol launchChoice_allowed
  have hresume : follows resume := by
    unfold follows resume
    rw [resume_eq]
    exact startWith_followsProtocol resumeChoice_allowed
  refine ⟨⟨hstart, hlaunch, hresume⟩, ?_, ?_, fun hstate =>
    ⟨hstart.refused hstate, hlaunch.refused hstate, hresume.refused hstate⟩⟩
  · intro server hserver hidle
    unfold startSession launch
    rw [startSession_eq, launch_eq]
    refine startWith_congr fun _ other hother => ?_
    rw [← hserver.unique hother, startChoice, launchChoice, if_pos hidle,
      if_pos hidle]
  · intro server hserver hrunning
    unfold startSession resume
    rw [startSession_eq, resume_eq]
    refine startWith_congr fun haccepted other hother => ?_
    have hbusy : server.currentGame ≠ 0 := hrunning ▸ haccepted.id
    rw [← hserver.unique hother, startChoice, resumeChoice, if_neg hbusy,
      if_neg hbusy, if_pos hrunning, if_pos hrunning]

end MoonlightScarlet.Control
